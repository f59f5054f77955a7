import NativeGlue.Java.Token
import NativeGlue.Parsing.Form

/-!
# The grammar of Java

What a source file may look like. Trees are kept for what declares something, down to the members of
types; code inside bodies, initial values and annotations is read and leaves no trees.

A word of the language is a name wherever the grammar does not take the word itself. Some branches end
in `never`: they lead nowhere, and only say that a word is no name at their place.
-/

namespace NativeGlue.Java

/-! ## 1. Phrases and trees -/

/-- The phrases of the language. -/
inductive Phrase where
  | file
  | statement
  | declaration
  | expression
  | primary
  | assignment
  | binary
  | typeTest
  | lambda
  | inferredParameters
  | conditional
  | unary
  | update
  | cast
  | literalValue
  | string
  | textBlock
  | embedded
  | classLiteral
  | grouped
  | objectCreation
  | creation
  | fieldAccess
  | template
  | elementAccess
  | call
  | methodReference
  | arrayCreation
  | sizedDimension
  | arguments
  | typeArguments
  | wildcard
  | dimensions
  | switchOver
  | switchBlock
  | switchGroup
  | switchRule
  | switchLabel
  | typePattern
  | recordPattern
  | recordPatternBody
  | recordPatternPart
  | guard
  | block
  | expressionStatement
  | labelled
  | assertStatement
  | doStatement
  | breakStatement
  | continueStatement
  | returnStatement
  | yieldStatement
  | synchronizedStatement
  | throwStatement
  | tryStatement
  | tryWith
  | catchClause
  | finallyClause
  | resource
  | ifStatement
  | whileStatement
  | forStatement
  | forEach
  | annotationUse
  | annotationMarker
  | annotationCall
  | elementValue
  | elementPair
  | elementList
  | moduleDeclaration
  | moduleDirective
  | packageDeclaration
  | importDeclaration
  | enumDeclaration
  | enumBody
  | enumConstant
  | classDeclaration
  | recordDeclaration
  | interfaceDeclaration
  | annotationDeclaration
  | modifiers
  | typeParameters
  | typeParameter
  | superclass
  | interfaces
  | permitted
  | typeList
  | classBody
  | interfaceBody
  | annotationBody
  | annotationElement
  | constructor
  | constructorBody
  | constructorCall
  | compactConstructor
  | fieldDeclaration
  | constantDeclaration
  | localDeclaration
  | declarators
  | declarator
  | declaratorName
  | arrayValues
  | type
  | plainType
  | annotatedType
  | simpleType
  | scopedType
  | genericType
  | arrayType
  | methodDeclaration
  | methodHeader
  | methodName
  | parameters
  | parameter
  | receiver
  | spread
  | throwsClause
  | qualifiedName
  | scopedName
  | borrowedName
  deriving DecidableEq, Repr, Inhabited

/-- The kinds of trees. -/
inductive NodeKind where
  | package
  | classDecl
  | interfaceDecl
  | enumDecl
  | recordDecl
  | annotationDecl
  | constant
  | method
  | field
  | modifiers
  | name
  | type
  | parameter
  | spread
  | dimensions
  | declarator
  deriving DecidableEq, Repr, Inhabited

namespace Grammar

open NativeGlue.Parsing Form

/-- A form of this grammar. -/
abbrev F := Form Terminal Phrase NodeKind

/-- A branch of this grammar. -/
abbrev B := Branch Terminal Phrase NodeKind

/-! ## 2. Small forms -/

/-- A symbol. -/
def sym (s : String) : F := token (.symbol s)

/-- A word of the language. -/
def key (w : String) : F := token (.word w)

/-- One of several words of the language. -/
def keys (ws : List String) : F := oneOf (ws.map key)

/-- A name. -/
def name : F := token .name

/-- A phrase. -/
def ph (p : Phrase) : F := phrase p

/-- A name, or a word of the language that may be a name as well. -/
def anyName : F := oneOf [name, ph .borrowedName]

/-- The name of what is declared. -/
def declaredName : F := node .name name

/-- Forms with a separator between. -/
def separated (s : F) (a : F) : F := both a (many (both s a))

/-- Forms with commas between, at least one. -/
def commas1 (a : F) : F := separated (sym ",") a

/-- Forms with commas between. -/
def commas (a : F) : F := optional (commas1 a)

/-- A form in braces. -/
def braced (a : F) : F := seq [sym "\x7b", a, sym "\x7d"]

/-- Annotations, perhaps none. -/
def annotations : F := many (ph .annotationUse)

/-- Modifiers, perhaps none. -/
def modifiersBefore : F := optional (node .modifiers (ph .modifiers))

/-- The type of what is declared. -/
def declaredType : F := node .type (ph .plainType)

/-- A phrase with one form that binds nothing. -/
def plain (a : F) : List B := [{ form := a }]

/-- A phrase whose parts have a rank. -/
def ranked (rank : Int) (a : F) (grouping : Grouping := .free) : List B :=
  [{ form := a, rank, grouping }]

/-! ## 3. Expressions -/

/-- The operators of two operands with their ranks. -/
def operators : List (Int × List String) :=
  [(4, ["||"]), (5, ["&&"]), (6, ["|"]), (7, ["^"]), (8, ["&"]), (9, ["==", "!="]),
    (10, [">", "<", ">=", "<="]), (11, ["<<", ">>", ">>>"]), (12, ["+", "-"]),
    (13, ["*", "/", "%"])]

/-- The operators that assign. -/
def assigning : List String :=
  ["=", "+=", "-=", "*=", "/=", "&=", "|=", "^=", "%=", "<<=", ">>=", ">>>="]

/-- Expressions, and the operations that expressions are made of. -/
def expressions : Grammar Terminal Phrase NodeKind := [
  (.expression, plain <| drop <| oneOf <| [.assignment, .binary, .typeTest, .lambda, .conditional,
    .update, .primary, .unary, .cast, .switchOver].map ph),
  (.assignment, ranked 1 (seq [oneOf [anyName, ph .fieldAccess, ph .elementAccess],
    oneOf (assigning.map sym), ph .expression]) .right),
  (.binary, operators.flatMap fun (rank, os) => os.flatMap fun o =>
    ranked rank (seq [ph .expression, sym o, ph .expression]) .left),
  (.typeTest,
    let tested := seq [ph .expression, key "instanceof", optional (key "final")]
    ranked 10 (oneOf [
      seq [tested, ph .type, optional anyName],
      seq [tested, ph .recordPattern],
      -- The word that begins a guard is no name behind a type.
      seq [tested, ph .type, key "when", token .never]])),
  (.lambda, plain (seq [oneOf [anyName, ph .parameters, ph .inferredParameters], sym "->",
    oneOf [ph .expression, ph .block]])),
  (.inferredParameters, plain (seq [sym "(", commas1 anyName, sym ")"])),
  (.conditional, ranked 3 (seq [ph .expression, sym "?", ph .expression, sym ":", ph .expression])
    .right),
  (.unary, ranked 15 (seq [oneOf (["+", "-", "!", "~"].map sym), ph .expression]) .left),
  (.update,
    let sign := oneOf [sym "++", sym "--"]
    ranked 15 (oneOf [seq [ph .expression, sign], seq [sign, ph .expression]]) .left),
  (.cast, ranked 14 (oneOf [
    seq [sym "(", ph .type, sym ")", ph .expression],
    seq [sym "(", separated (sym "&") (ph .type), sym ")", oneOf [ph .primary, ph .lambda]]]))]

/-- What an operation is made of. -/
def primaries : Grammar Terminal Phrase NodeKind := [
  (.primary, plain (oneOf [ph .literalValue, ph .classLiteral, key "this", anyName, ph .grouped,
    ph .objectCreation, ph .fieldAccess, ph .elementAccess, ph .call, ph .methodReference,
    ph .arrayCreation, ph .template])),
  (.literalValue, plain (oneOf [token .literal, keys ["true", "false", "null"], ph .string])),
  (.string, plain (oneOf [
    seq [sym "\"", many (oneOf [token .fragment, token .escape, ph .embedded]), sym "\""],
    seq [sym "\"\"\"", many (oneOf [token .blockFragment, token .blockEscape, ph .embedded]),
      sym "\"\"\""]])),
  (.embedded, plain (seq [sym "\\\x7b", ph .expression, sym "\x7d"])),
  (.classLiteral, plain (seq [ph .plainType, sym ".", key "class"])),
  (.grouped, plain (seq [sym "(", ph .expression, sym ")"])),
  (.objectCreation, plain (oneOf [ph .creation, seq [ph .primary, sym ".", ph .creation]])),
  (.creation, ranked 0 (seq [key "new",
    oneOf [seq [annotations, ph .typeArguments, annotations], annotations],
    ph .simpleType, ph .arguments, optional (ph .classBody)]) .right),
  (.fieldAccess, plain (seq [oneOf [ph .primary, key "super"], optional (seq [sym ".", key "super"]),
    sym ".", oneOf [anyName, key "this"]])),
  (.template, plain (seq [ph .primary, sym ".", ph .string])),
  (.elementAccess, plain (seq [ph .primary, sym "[", ph .expression, sym "]"])),
  (.call, plain (seq [
    oneOf [anyName,
      seq [oneOf [ph .primary, key "super"], sym ".", optional (seq [key "super", sym "."]),
        optional (ph .typeArguments), anyName]],
    ph .arguments])),
  (.methodReference, plain (seq [oneOf [ph .type, ph .primary, key "super"], sym "::",
    optional (ph .typeArguments), oneOf [key "new", name]])),
  (.arrayCreation, ranked 0 (seq [key "new", annotations, ph .simpleType, oneOf [
    seq [repeated (ph .sizedDimension), optional (ph .dimensions)],
    seq [ph .dimensions, ph .arrayValues]]]) .right),
  (.sizedDimension, plain (seq [annotations, sym "[", ph .expression, sym "]"])),
  (.arguments, plain (drop (seq [sym "(", commas (ph .expression), sym ")"]))),
  (.arrayValues, plain (drop (braced (both (commas (oneOf [ph .expression, ph .arrayValues]))
    (optional (sym ",")))))),
  (.switchOver, plain (seq [key "switch", ph .grouped, ph .switchBlock])),
  (.switchBlock, plain (braced (oneOf [many (ph .switchGroup), many (ph .switchRule)]))),
  (.switchGroup, ranked 0 (both (repeated (both (ph .switchLabel) (sym ":")))
    (many (ph .statement))) .left),
  (.switchRule, plain (seq [ph .switchLabel, sym "->",
    oneOf [ph .expressionStatement, ph .throwStatement, ph .block]])),
  (.switchLabel, plain (oneOf [
    seq [key "case", oneOf [ph .typePattern, ph .recordPattern, commas1 (ph .expression)],
      optional (ph .guard)],
    key "default"])),
  (.typePattern, plain (both (ph .plainType) anyName)),
  (.recordPattern, plain (both (oneOf [anyName, ph .genericType]) (ph .recordPatternBody))),
  (.recordPatternBody, plain (seq [sym "(",
    commas (oneOf [ph .recordPatternPart, ph .recordPattern]), sym ")"])),
  (.recordPatternPart, plain (oneOf [key "_", both (ph .plainType) anyName])),
  (.guard, plain (both (key "when") (ph .expression)))]

/-! ## 4. Statements -/

/-- Statements and what they are made of. -/
def statements : Grammar Terminal Phrase NodeKind := [
  (.statement, plain (oneOf [ph .declaration, drop (oneOf <| [sym ";"] ++ [.expressionStatement,
    .labelled, .ifStatement, .whileStatement, .forStatement, .forEach, .block, .assertStatement,
    .doStatement, .breakStatement, .continueStatement, .returnStatement, .yieldStatement, .switchOver,
    .synchronizedStatement, .localDeclaration, .throwStatement, .tryStatement, .tryWith].map ph)])),
  (.block, plain (drop (braced (many (ph .statement))))),
  (.expressionStatement, plain (both (ph .expression) (sym ";"))),
  (.labelled, plain (seq [name, sym ":", ph .statement])),
  (.assertStatement, plain (seq [key "assert", ph .expression,
    optional (both (sym ":") (ph .expression)), sym ";"])),
  (.doStatement, plain (seq [key "do", ph .statement, key "while", ph .grouped, sym ";"])),
  (.breakStatement, plain (seq [key "break", optional name, sym ";"])),
  (.continueStatement, plain (seq [key "continue", optional name, sym ";"])),
  (.returnStatement, plain (seq [key "return", optional (ph .expression), sym ";"])),
  (.yieldStatement, plain (seq [key "yield", ph .expression, sym ";"])),
  (.synchronizedStatement, plain (seq [key "synchronized", ph .grouped, ph .block])),
  (.throwStatement, plain (seq [key "throw", ph .expression, sym ";"])),
  (.tryStatement, plain (seq [key "try", ph .block, oneOf [repeated (ph .catchClause),
    both (many (ph .catchClause)) (ph .finallyClause)]])),
  (.tryWith, plain (seq [key "try", sym "(", separated (sym ";") (ph .resource), optional (sym ";"),
    sym ")", ph .block, many (ph .catchClause), optional (ph .finallyClause)])),
  (.catchClause, plain (seq [key "catch", sym "(", modifiersBefore,
    separated (sym "|") (ph .plainType), ph .declaratorName, sym ")", ph .block])),
  (.finallyClause, plain (both (key "finally") (ph .block))),
  (.resource, plain (oneOf [
    seq [modifiersBefore, ph .plainType, ph .declaratorName, sym "=", ph .expression],
    name, ph .fieldAccess,
    -- A tested resource is refused even where a type could have this name.
    seq [key "sealed", key "instanceof", token .never]])),
  (.ifStatement, ranked 0 (seq [key "if", ph .grouped, ph .statement,
    optional (both (key "else") (ph .statement))]) .right),
  (.whileStatement, plain (seq [key "while", ph .grouped, ph .statement])),
  (.forStatement, plain (oneOf [
    seq [key "for", sym "(",
      oneOf [ph .localDeclaration, both (commas (ph .expression)) (sym ";")],
      optional (ph .expression), sym ";", commas (ph .expression), sym ")", ph .statement],
    -- The word that begins a guard is no name behind a type.
    seq [key "for", sym "(", name, key "when", token .never]])),
  (.forEach, plain (seq [key "for", sym "(", modifiersBefore, ph .plainType, ph .declaratorName,
    sym ":", ph .expression, sym ")", ph .statement])),
  (.localDeclaration, plain (seq [modifiersBefore, ph .plainType, ph .declarators, sym ";"]))]

/-! ## 5. Annotations and types -/

/-- The primitive types and the type of no value. -/
def primitiveWords : List String :=
  ["byte", "short", "int", "long", "char", "float", "double", "boolean", "void"]

/-- Annotations, names and types. -/
def types : Grammar Terminal Phrase NodeKind := [
  (.annotationUse, plain (oneOf [ph .annotationMarker, ph .annotationCall])),
  (.annotationMarker, plain (both (sym "@") (ph .qualifiedName))),
  (.annotationCall, plain (drop (seq [sym "@", ph .qualifiedName, sym "(",
    oneOf [ph .elementValue, commas (ph .elementPair)], sym ")"]))),
  (.elementPair, plain (seq [anyName, sym "=", ph .elementValue])),
  (.elementValue, ranked 2 (oneOf [ph .expression, ph .elementList, ph .annotationUse])),
  (.elementList, plain (braced (both (commas (ph .elementValue)) (optional (sym ","))))),
  (.qualifiedName, plain (oneOf [anyName, ph .scopedName])),
  (.scopedName, plain (seq [ph .qualifiedName, sym ".", name])),
  (.borrowedName, [{ form := keys ["open", "module", "record", "with", "sealed"], rank := -3 },
    { form := key "yield" }]),
  (.type, plain (oneOf [ph .plainType, ph .annotatedType])),
  (.plainType, plain (oneOf [ph .simpleType, ph .arrayType])),
  (.annotatedType, plain (both (repeated (ph .annotationUse)) (ph .plainType))),
  (.simpleType, plain (oneOf [keys primitiveWords, name, ph .scopedType, ph .genericType])),
  (.scopedType, plain (seq [oneOf [name, ph .scopedType, ph .genericType], sym ".", annotations,
    name])),
  (.genericType, plain (both (oneOf [name, ph .scopedType]) (ph .typeArguments))),
  (.arrayType, plain (both (ph .plainType) (ph .dimensions))),
  (.typeArguments, plain (seq [sym "<", commas (oneOf [ph .type, ph .wildcard]), sym ">"])),
  (.wildcard, plain (seq [annotations, sym "?",
    optional (both (keys ["extends", "super"]) (ph .type))])),
  (.dimensions, ranked 0 (repeated (seq [annotations, sym "[", sym "]"])) .right),
  (.typeParameters, plain (seq [sym "<", commas1 (ph .typeParameter), sym ">"])),
  (.typeParameter, plain (seq [annotations, name,
    optional (both (key "extends") (separated (sym "&") (ph .type)))])),
  (.typeList, plain (commas1 (ph .type)))]

/-! ## 6. Members -/

/-- The declarations of types other than records. -/
def typeDeclarations : List F :=
  [node .classDecl (ph .classDeclaration), node .interfaceDecl (ph .interfaceDeclaration),
    node .annotationDecl (ph .annotationDeclaration), node .enumDecl (ph .enumDeclaration)]

/-- The declaration of a record. -/
def recordType : F := node .recordDecl (ph .recordDeclaration)

/-- A member of a class. -/
def classMember : F :=
  oneOf (typeDeclarations ++ [recordType, node .field (ph .fieldDeclaration),
    node .method (ph .methodDeclaration), drop (ph .compactConstructor), drop (ph .constructor),
    ph .block, both (key "static") (ph .block), sym ";"])

/-- Fields, methods, constructors and their parts. -/
def members : Grammar Terminal Phrase NodeKind := [
  (.classBody, plain (braced (many classMember))),
  (.interfaceBody, plain (braced (many (oneOf (typeDeclarations ++ [recordType,
    node .field (ph .constantDeclaration), node .method (ph .methodDeclaration), sym ";"]))))),
  (.annotationBody, plain (braced (many (oneOf (typeDeclarations ++ [
    node .field (ph .constantDeclaration), drop (ph .annotationElement), sym ";"]))))),
  (.annotationElement, plain (seq [modifiersBefore, ph .plainType, anyName, sym "(", sym ")",
    optional (ph .dimensions), optional (both (key "default") (ph .elementValue)), sym ";"])),
  (.enumBody, plain (braced (seq [commas (node .constant (ph .enumConstant)), optional (sym ","),
    optional (both (sym ";") (many classMember))]))),
  (.enumConstant, plain (seq [modifiersBefore, declaredName, optional (ph .arguments),
    optional (ph .classBody)])),
  (.fieldDeclaration, plain (seq [modifiersBefore, declaredType, ph .declarators, sym ";"])),
  (.constantDeclaration, plain (seq [modifiersBefore, declaredType, ph .declarators, sym ";"])),
  (.declarators, plain (commas1 (node .declarator (ph .declarator)))),
  (.declarator, plain (both (ph .declaratorName)
    (optional (both (sym "=") (oneOf [ph .expression, ph .arrayValues]))))),
  (.declaratorName, plain (both (node .name (oneOf [anyName, key "_"]))
    (optional (node .dimensions (ph .dimensions))))),
  (.methodDeclaration, plain (seq [modifiersBefore, ph .methodHeader, oneOf [ph .block, sym ";"]])),
  (.methodHeader, plain (seq [optional (both (ph .typeParameters) annotations), declaredType,
    ph .methodName, optional (ph .throwsClause)])),
  (.methodName, plain (seq [node .name anyName, ph .parameters, optional (ph .dimensions)])),
  (.parameters,
    let ordinary := oneOf [node .parameter (ph .parameter), node .spread (ph .spread)]
    plain (seq [sym "(",
      oneOf [ph .receiver, both (optional (both (ph .receiver) (sym ","))) (commas ordinary)],
      sym ")"])),
  (.parameter, plain (seq [modifiersBefore, declaredType, ph .declaratorName])),
  (.receiver, plain (seq [annotations, ph .plainType, many (both name (sym ".")), key "this"])),
  (.spread, plain (seq [modifiersBefore, declaredType, sym "...", annotations, ph .declarator])),
  (.throwsClause, plain (both (key "throws") (commas1 (ph .type)))),
  (.constructor, plain (seq [modifiersBefore, optional (ph .typeParameters), name, ph .parameters,
    optional (ph .throwsClause), ph .constructorBody])),
  (.constructorBody, plain (braced (both (optional (ph .constructorCall)) (many (ph .statement))))),
  (.constructorCall, plain (seq [
    oneOf [both (optional (ph .typeArguments)) (keys ["this", "super"]),
      seq [ph .primary, sym ".", optional (ph .typeArguments), key "super"]],
    ph .arguments, sym ";"])),
  (.compactConstructor, plain (seq [modifiersBefore, name, ph .block]))]

/-! ## 7. Declarations -/

/-- What is exported or opened by a module, and to whom. -/
def moduleShare (w : String) : F :=
  seq [key w, ph .qualifiedName, optional (both (key "to") (commas1 (ph .qualifiedName))), sym ";"]

/-- Declarations of types, modules, packages and imports. -/
def declarations : Grammar Terminal Phrase NodeKind := [
  (.declaration, ranked 2 (oneOf (typeDeclarations ++ [recordType,
    node .package (ph .packageDeclaration), drop (ph .importDeclaration),
    drop (ph .moduleDeclaration)]))),
  (.packageDeclaration, plain (seq [annotations, key "package", node .name (ph .qualifiedName),
    sym ";"])),
  (.importDeclaration, plain (seq [key "import", optional (key "static"), ph .qualifiedName,
    optional (both (sym ".") (sym "*")), sym ";"])),
  (.moduleDeclaration, plain (seq [annotations, optional (key "open"), key "module",
    ph .qualifiedName, braced (many (ph .moduleDirective))])),
  (.moduleDirective, plain (oneOf [
    seq [key "requires", many (keys ["transitive", "static"]), ph .qualifiedName, sym ";"],
    moduleShare "exports", moduleShare "opens",
    seq [key "uses", ph .qualifiedName, sym ";"],
    seq [key "provides", ph .qualifiedName, key "with", commas1 (ph .qualifiedName), sym ";"]])),
  (.classDeclaration, plain (seq [modifiersBefore, key "class", declaredName,
    optional (ph .typeParameters), optional (ph .superclass), optional (ph .interfaces),
    optional (ph .permitted), ph .classBody])),
  (.interfaceDeclaration, plain (seq [modifiersBefore, key "interface", declaredName,
    optional (ph .typeParameters), optional (both (key "extends") (ph .typeList)),
    optional (ph .permitted), ph .interfaceBody])),
  (.enumDeclaration, plain (seq [modifiersBefore, key "enum", declaredName, optional (ph .interfaces),
    ph .enumBody])),
  (.recordDeclaration, plain (seq [modifiersBefore, key "record", declaredName,
    optional (ph .typeParameters), drop (ph .parameters), optional (ph .interfaces),
    ph .classBody])),
  (.annotationDeclaration, plain (seq [modifiersBefore, sym "@interface", declaredName,
    ph .annotationBody])),
  (.superclass, plain (both (key "extends") (ph .type))),
  (.interfaces, plain (both (key "implements") (ph .typeList))),
  (.permitted, plain (both (key "permits") (ph .typeList)))]

/-- The words that modify a declaration. -/
def modifierWords : List String :=
  ["public", "protected", "private", "abstract", "static", "final", "strictfp", "default",
    "synchronized", "native", "transient", "volatile", "sealed"]

/-- A source file: declarations, statements and methods in any order. Modifiers come right behind it,
since an annotation is a modifier wherever it may be one. -/
def file : Grammar Terminal Phrase NodeKind := [
  (.file, plain (many (oneOf [ph .statement, node .method (ph .methodDeclaration)]))),
  (.modifiers, plain (repeated (oneOf [ph .annotationUse, keys modifierWords, sym "non-sealed"])))]

/-- The grammar. -/
def all : Grammar Terminal Phrase NodeKind :=
  file ++ declarations ++ members ++ statements ++ expressions ++ primaries ++ types

end Grammar

end NativeGlue.Java
