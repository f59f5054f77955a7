import NativeGlue.Directive.Basic
import NativeGlue.Text.Number

/-!
# Directives in doc comments

A directive is a tag followed by `key=value` pairs:

    @method flags=dynamic const,cast=(GtkWidget *)
    @param widget cast=(GtkWidget *),flags=critical

A tag whose text holds no pair is documentation. A pair begins at a key directly followed by an equals
sign, outside parentheses, and reaches to the next pair; so a value may hold blanks and commas. The
text is cut in two steps, tags (`tagsOfComment`) and pairs (`readPairs`), and only then read.
-/

namespace NativeGlue.Directive

open NativeGlue.Text

/-! ## 1. Tags -/

/-- What a tag speaks about. -/
inductive TagKind where
  | method
  | param
  | field
  | struct
  deriving DecidableEq, Repr, Inhabited

/-- The word of a tag. -/
def TagKind.word : TagKind → String
  | .method => "method"
  | .param => "param"
  | .field => "field"
  | .struct => "struct"

/-- The kinds of tags. -/
def TagKind.all : List TagKind := [.method, .param, .field, .struct]

/-- The keys that a tag may give. -/
def TagKind.keys : TagKind → List String
  | .method => ["flags", "cast", "accessor"]
  | .param => ["flags", "cast", "length"]
  | .field => ["flags", "cast", "accessor", "platform", "offset"]
  | .struct => ["flags", "accessor"]

/-- A tag with its text, and the line it stands on. -/
structure Tag where
  kind : TagKind
  body : List Char
  line : Int
  deriving DecidableEq, Repr

/-- Whether a text goes on with the end of a word. -/
def endsWord : List Char → Bool
  | [] => true
  | c :: _ => !isWordChar c

/-- The tag whose word a text begins with. -/
def tagWord? (s : List Char) : Option TagKind :=
  TagKind.all.find? fun k => match rest? k.word.toList s with
    | some r => endsWord r
    | none => false

/-- Cuts a line into tags and their texts. `current` is the tag being read with its text so far, the
last character first; `skip` counts characters of a tag word still to be passed over. -/
def cutTags (current : Option (TagKind × List Char)) :
    Nat → List Char → List (TagKind × List Char)
  | _, [] => (current.map fun (k, acc) => (k, acc.reverse)).toList
  | skip + 1, _ :: r => cutTags current skip r
  | 0, c :: r =>
    match (if c = '@' then tagWord? r else none) with
    | some k =>
      (current.map fun (k, acc) => (k, acc.reverse)).toList
        ++ cutTags (some (k, [])) k.word.length r
    | none => cutTags (current.map fun (k, acc) => (k, c :: acc)) 0 r

/-- A line of a doc comment without the marks that make it one. -/
def commentLine (raw : List Char) : List Char :=
  let s := trimOf isBlank raw
  let s := if "/**".toList.isPrefixOf s then s.drop 3 else s
  let s := if "*/".toList.isSuffixOf s then s.take (s.length - 2) else s
  trimOf isBlank ((trimOf isBlank s).dropWhile (· == '*'))

/-- The tags of a comment that begins on a line, in order. -/
def tagsOfComment (comment : String) (firstLine : Int) : List Tag :=
  (lines comment).zipIdx.flatMap fun (raw, i) =>
    (cutTags none 0 (commentLine raw.toList)).map fun (k, body) =>
      ⟨k, trimOf isBlank body, firstLine + i⟩

/-! ## 2. Pairs -/

/-- What may begin a key. -/
def isKeyStart (c : Char) : Bool := c.isAlpha || c == '_'

/-- What may stand inside a key. -/
def isKeyPart (c : Char) : Bool := c.isAlphanum || c == '_'

/-- The key that a text begins with, if an equals sign follows it directly. -/
def keyAt? (s : List Char) : Option (List Char) :=
  match s with
  | c :: _ =>
    if isKeyStart c && (s.dropWhile isKeyPart).head? == some '=' then some (s.takeWhile isKeyPart)
    else none
  | [] => none

/-- Parentheses open behind a character; one that closes none is passed over. -/
def depthAfter (depth : Nat) (c : Char) : Nat :=
  if c = '(' then depth + 1 else if c = ')' then depth - 1 else depth

/-- Cuts a text at its keys: each key with the text behind it, and first of all the text before the
first key, under the empty key. `inWord` tells whether a word character stands right before,
`depth` how many parentheses are open, `skip` how many characters of a key are still passed over. -/
def cutPairs (key acc : List Char) (inWord : Bool) (depth : Nat) :
    Nat → List Char → List (List Char × List Char)
  | _, [] => [(key, acc.reverse)]
  | skip + 1, _ :: r => cutPairs key acc false depth skip r
  | 0, c :: r =>
    match (if !inWord && depth = 0 then keyAt? (c :: r) else none) with
    | some k => (key, acc.reverse) :: cutPairs k [] false 0 k.length r
    | none => cutPairs key (c :: acc) (isWordChar c) (depthAfter depth c) 0 r

/-- The value of a pair without the comma that separates it from the next one. -/
def pairValue (raw : List Char) : String :=
  String.ofList (trimOf isBlank (dropEnd (· == ',') (trimOf isBlank raw)))

/-- What may be wrong with a directive. -/
inductive Fault where
  | unexpectedText (kind : TagKind) (text : String)
  | unknownKey (kind : TagKind) (key : String)
  | duplicateKey (kind : TagKind) (key : String)
  | offsetNotInteger (text : String)
  | flag (fault : FlagFault)
  deriving DecidableEq, Repr

/-- The text of a fault. -/
def Fault.message : Fault → String
  | .unexpectedText k t => s!"unexpected text '{t}' in @{k.word} directive"
  | .unknownKey k key => s!"unknown @{k.word} directive '{key}'"
  | .duplicateKey k key => s!"duplicate @{k.word} directive '{key}'"
  | .offsetNotInteger t => s!"offset must be an integer, got '{t}'"
  | .flag f => f.message

/-- Pairs by key, each key once and known to the tag. -/
def checkPairs (kind : TagKind) (seen : List String) :
    List (List Char × List Char) → Except Fault (List (String × String))
  | [] => .ok []
  | (k, v) :: r =>
    let key := String.ofList k
    if !kind.keys.contains key then .error (.unknownKey kind key)
    else if seen.contains key then .error (.duplicateKey kind key)
    else (checkPairs kind (key :: seen) r).map fun ps => (key, pairValue v) :: ps

/-- The subject of a tag and the text behind it: a parameter tag begins with the parameter's name. -/
def tagSubject? (t : Tag) : Option (String × List Char) :=
  if t.kind = .param then
    let name := t.body.takeWhile (!isBlank ·)
    if name.isEmpty then none
    else some (String.ofList name, (t.body.drop name.length).dropWhile isBlank)
  else some ("", t.body)

/-- The subject and the pairs of a tag; nothing if the tag is documentation. -/
def readPairs (t : Tag) : Except Fault (Option (String × List (String × String))) :=
  match tagSubject? t with
  | none => .ok none
  | some (subject, body) =>
    match cutPairs [] [] false 0 0 body with
    | (_, leading) :: p :: ps =>
      let leading := trimOf (fun c => c == ' ' || c == ',') leading
      if !leading.isEmpty then .error (.unexpectedText t.kind (String.ofList leading))
      else (checkPairs t.kind [] (p :: ps)).map fun ps => some (subject, ps)
    | _ => .ok none

/-! ## 3. Reading -/

/-- What the doc comment of a declaration asks for. -/
structure DocOptions where
  method : Option MethodOptions := none
  params : List (String × ParamOptions) := []
  field : Option FieldOptions := none
  struct : Option StructOptions := none
  deriving DecidableEq, Repr, Inhabited

/-- What the comment asks for a parameter. -/
def DocOptions.param (d : DocOptions) (name : String) : ParamOptions :=
  (d.params.lookup name).getD {}

/-- The words under a key. -/
def wordsOf (ps : List (String × String)) (key : String) : List String :=
  ((ps.lookup key).map Data.Value.textWords).getD []

/-- The text under a key, unless it is empty. -/
def textOf? (ps : List (String × String)) (key : String) : Option String :=
  (ps.lookup key).filter (!·.isEmpty)

/-- The flags among words. -/
def flagsOf {F : Type} [FlagSet F] (words : List String) : Except Fault F :=
  (readFlags words).mapError .flag

/-- The directives of a method tag. -/
def readMethod (ps : List (String × String)) : Except Fault MethodOptions := do
  let flags ← flagsOf (wordsOf ps "flags")
  pure ⟨flags, textOf? ps "cast", textOf? ps "accessor"⟩

/-- The directives of a parameter tag. -/
def readParam (ps : List (String × String)) : Except Fault ParamOptions := do
  let (owner, words) ← (splitOwnership (wordsOf ps "flags")).mapError .flag
  let flags ← flagsOf words
  pure ⟨flags, owner, textOf? ps "cast", textOf? ps "length"⟩

/-- The directives of a field tag. -/
def readField (ps : List (String × String)) : Except Fault FieldOptions := do
  let offset ← match textOf? ps "offset" with
    | none => pure none
    | some t => match readIntLiteral? t with
      | none => throw (.offsetNotInteger t)
      | some n => pure (some (Offset.int n))
  let flags ← flagsOf (wordsOf ps "flags")
  pure ⟨flags, textOf? ps "cast", textOf? ps "accessor", wordsOf ps "platform", offset⟩

/-- The directives of a struct tag. -/
def readStruct (ps : List (String × String)) : Except Fault StructOptions := do
  let flags ← flagsOf (wordsOf ps "flags")
  pure ⟨flags, textOf? ps "accessor", true⟩

/-- Puts directives under a name, in place of those that stood there. -/
def putParam (name : String) (d : ParamOptions) :
    List (String × ParamOptions) → List (String × ParamOptions)
  | [] => [(name, d)]
  | (n, e) :: r => if n = name then (n, d) :: r else (n, e) :: putParam name d r

/-- What a comment asks for once a further tag of it is read. -/
def applyTag (d : DocOptions) (t : Tag) : Except Fault DocOptions := do
  match ← readPairs t with
  | none => pure d
  | some (subject, ps) =>
    match t.kind with
    | .method => do pure { d with method := some (← readMethod ps) }
    | .param => do pure { d with params := putParam subject (← readParam ps) d.params }
    | .field => do pure { d with field := some (← readField ps) }
    | .struct => do pure { d with struct := some (← readStruct ps) }

/-- Reads the tags of a comment one after the other; a fault comes with the line of its tag. -/
def applyTags (d : DocOptions) : List Tag → Except (Int × Fault) DocOptions
  | [] => .ok d
  | t :: r => do
    let d' ← (applyTag d t).mapError fun f => (t.line, f)
    applyTags d' r

/-- Whether a text holds the bare struct tag. -/
def hasStructTag : List Char → Bool
  | [] => false
  | c :: r =>
    (match rest? "@struct".toList (c :: r) with
      | some r' => endsWord r'
      | none => false) || hasStructTag r

/-- What a comment that begins on a line asks for. Only doc comments ask for anything; one that holds
the bare struct tag makes its class a struct class. -/
def readComment (comment : Option String) (firstLine : Int) :
    Except (Int × Fault) DocOptions := do
  match comment with
  | none => pure {}
  | some c =>
    if !startsWith c "/**" then pure {}
    else
      let d ← applyTags {} (tagsOfComment c firstLine)
      if d.struct.isNone && hasStructTag c.toList then
        pure { d with struct := some { tagged := true } }
      else pure d

end NativeGlue.Directive
