import NativeGlue.Text.Blank
import NativeGlue.Text.Substring

/-!
# Indented text

C code line by line, indented as its blocks are nested. A text holds the lines so far, the depth
of what comes next, and the closing lines of the blocks that are open. Ordinary lines take the depth;
labels and preprocessor lines stand flush left.
-/

namespace NativeGlue.Code

/-! ## 1. Lines -/

/-- A line of code: at a depth, or flush left. -/
inductive Line where
  | indented (depth : Nat) (text : String)
  | flush (text : String)
  deriving DecidableEq, Repr, Inhabited

/-- The characters of a line: a tab for each level, and nothing at all for an empty line. -/
def Line.text : Line → String
  | .indented depth t => if t.isEmpty then "" else Text.copies depth "\t" ++ t
  | .flush t => t

@[simp] theorem Line.text_indented_empty (d : Nat) : (Line.indented d "").text = "" := rfl

/-! ## 2. Builders -/

/-- Code under construction. -/
structure IndentedText where
  lines : List Line := []
  depth : Nat := 0
  closing : List String := []
  deriving DecidableEq, Repr, Inhabited

namespace IndentedText

/-- Adds a line. -/
def push (b : IndentedText) (l : Line) : IndentedText := { b with lines := b.lines ++ [l] }

/-- Adds a line at the current depth. -/
def line (b : IndentedText) (text : String) : IndentedText := b.push (.indented b.depth text)

/-- Adds several lines at the current depth. -/
def addLines (b : IndentedText) (texts : List String) : IndentedText := texts.foldl line b

/-- The lines of a code fragment without the empty ones around it and the blanks at their ends. -/
def fragmentLines (text : String) : List String :=
  let inner := Text.trimOf (· == '\n') text.toList
  (Text.lines (String.ofList inner)).map Text.trimEnd

/-- Adds a code fragment, if there is one, at the current depth. -/
def fragment (b : IndentedText) : Option String → IndentedText
  | none => b
  | some text => if text.isEmpty then b else b.addLines (fragmentLines text)

/-- Adds a line flush left. -/
def raw (b : IndentedText) (text : String) : IndentedText := b.push (.flush text)

/-- Adds a label. -/
def label (b : IndentedText) (name : String) : IndentedText := b.raw (name ++ ":")

/-- Goes one level deeper. -/
def indent (b : IndentedText) : IndentedText := { b with depth := b.depth + 1 }

/-- Goes one level back, if there is one. -/
def dedent (b : IndentedText) : IndentedText := { b with depth := b.depth - 1 }

/-- Opens a block: its header, and all that follows one level deeper. -/
def openBlock (b : IndentedText) (header footer : String) : IndentedText :=
  let b := (b.line header).indent
  { b with closing := footer :: b.closing }

/-- Closes the innermost open block. -/
def closeBlock (b : IndentedText) : IndentedText :=
  match b.closing with
  | [] => b
  | footer :: r => ({ b with closing := r }.dedent).line footer

/-- The code as one text, lines separated by line feeds. -/
def render (b : IndentedText) : String := "\n".intercalate (b.lines.map (·.text))

@[simp] theorem depth_push (b : IndentedText) (l : Line) : (b.push l).depth = b.depth := rfl

@[simp] theorem depth_line (b : IndentedText) (t : String) : (b.line t).depth = b.depth := rfl

theorem lines_addLines (b : IndentedText) (ts : List String) :
    (b.addLines ts).lines = b.lines ++ ts.map (Line.indented b.depth) ∧
      (b.addLines ts).depth = b.depth ∧ (b.addLines ts).closing = b.closing := by
  induction ts generalizing b with
  | nil => simp [addLines]
  | cons t r ih =>
    have h := ih (b.line t)
    simp only [addLines, List.foldl_cons] at h ⊢
    refine ⟨?_, h.2.1, h.2.2⟩
    rw [h.1]
    simp [line, push]

/-- A block takes its depth away again when it is closed. -/
theorem depth_closeBlock_openBlock (b : IndentedText) (h f : String) :
    ((b.openBlock h f).closeBlock).depth = b.depth := by
  simp [openBlock, closeBlock, line, push, indent, dedent]

end IndentedText

/-! ## 3. Files -/

/-- A generated file: where it goes below the output directory, and its text. -/
structure OutputFile where
  relativePath : String
  content : String
  deriving DecidableEq, Repr, Inhabited

/-- The first line of every C file. -/
def banner : String := "/* Generated by jnigen. Do not edit. */"

/-- The text of a C file: its lines, no carriage return before a line feed, and exactly one line feed
at the end. -/
def fileText (lines : List String) : String :=
  let s := (Text.replace ("\n".intercalate lines) "\r\n" "\n").toList
  String.ofList (Text.dropEnd (· == '\n') s ++ ['\n'])

end NativeGlue.Code
