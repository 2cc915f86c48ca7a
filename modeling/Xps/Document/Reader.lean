import Xps.Document.Lexical

/-!
# Reading documents

A document is one element with what it contains, all of it well-formed: the tags nest, every prefix
is declared, no attribute is repeated, and there is no document type.
-/

namespace Xps

/-- An element with its plain attributes and the elements inside, in document order. -/
structure DocumentElement where
  name : String
  /-- The attributes without a namespace prefix. -/
  attributes : List (String × String)
  children : List DocumentElement

def DocumentElement.get? (e : DocumentElement) (name : String) : Option String :=
  e.attributes.lookup name

namespace Document

open Text (isSpace)

/-- The namespaces that prefixes stand for, the innermost first. -/
abbrev Namespaces := List (String × String)

def xmlNamespace : String := "http://www.w3.org/XML/1998/namespace"

/-- An element that is not closed yet. Its children are kept with the latest one first. -/
structure OpenElement where
  name : QName
  attributes : List (String × String)
  namespaces : Namespaces
  children : List DocumentElement := []

def OpenElement.close (e : OpenElement) : DocumentElement :=
  ⟨e.name.name, e.attributes, e.children.reverse⟩

/-- The text to come, the open elements with the innermost first, and the root once it is closed. -/
structure State where
  rest : List Char
  opened : List OpenElement := []
  root : Option DocumentElement := none

/-! ## Tags -/

/-- Reads an equals sign and a quoted value. -/
def quoted (s : List Char) : Except DocumentFault (List Char × List Char) := do
  let s := skipSpace (← expect "=" (skipSpace s))
  match s with
  | quote :: s =>
    if quote = '"' ∨ quote = '\'' then
      let (value, rest) ← upTo quote.toString s
      if value.contains '<' then .error .unexpectedMarkup else .ok (value, rest)
    else .error .unexpectedMarkup
  | [] => .error .unclosed

/-- How a start tag ends. -/
inductive TagEnd
  | opened
  | closed

/-- Reads the attributes of a start tag and its end. -/
def tagRest (attributes : List (QName × String)) (s : List Char) :
    Except DocumentFault ((List (QName × String) × TagEnd) × List Char) :=
  match skipSpace s with
  | '/' :: '>' :: rest => .ok ((attributes.reverse, .closed), rest)
  | '>' :: rest => .ok ((attributes.reverse, .opened), rest)
  | inner =>
    if inner.length = s.length then .error .unexpectedMarkup
    else do
      let (name, s₁) ← qname inner
      let (raw, s₂) ← quoted s₁
      let value ← attributeValue raw
      if s₂.length < s.length then tagRest ((name, value) :: attributes) s₂
      else .error .unexpectedMarkup
termination_by s.length

/-- The namespace of attributes that declare namespaces. -/
def declarationNamespace : String := "http://www.w3.org/2000/xmlns/"

/-- An attribute that declares a namespace, for a prefix or for names without one. -/
def isDeclaration (name : QName) : Bool := name.qualifier == "xmlns" || name.name == "xmlns"

/-- Adds the namespace that an attribute declares to those that are declared with it. The prefix
`xml` has its own namespace and no other prefix has it. Only prefixes may not be declared twice. -/
def declare (declared : Namespaces) (name : QName) (uri : String) :
    Except DocumentFault Namespaces :=
  if uri = declarationNamespace then .error .invalidName
  else if name.qualifier = "xmlns" then
    if (name.name == "xml") != (uri == xmlNamespace) then .error .invalidName
    else if (declared.lookup name.name).isSome then .error (.repeatedAttribute name.name)
    else .ok (if uri = xmlNamespace then declared else declared ++ [(name.name, uri)])
  else if uri = xmlNamespace then .error .invalidName
  else .ok (declared ++ [("", uri)])

/-- The namespace of a prefix. Only the empty one needs no declaration. -/
def namespaceOf (namespaces : Namespaces) (qualifier : String) : Except DocumentFault String :=
  match namespaces.lookup qualifier with
  | some uri => .ok uri
  | none => if qualifier.isEmpty then .ok "" else .error (.undeclaredPrefix qualifier)

/-- The namespace of an attribute. It has none without a prefix, and `xml` needs no declaration. -/
def attributeNamespace (namespaces : Namespaces) (qualifier : String) :
    Except DocumentFault (Option String) :=
  if qualifier.isEmpty then .ok none
  else if qualifier = "xml" then .ok (some xmlNamespace)
  else (namespaceOf namespaces qualifier).map some

/-- The first name that is in a list twice. -/
def repeated? {α : Type} [DecidableEq α] : List α → Option α
  | [] => none
  | a :: as => if a ∈ as then some a else repeated? as

/-- Opens an element inside of others. -/
def openElement (outer : Namespaces) (name : QName) (attributes : List (QName × String)) :
    Except DocumentFault OpenElement := do
  if name.qualifier = "xmlns" then throw .invalidName
  let (declarations, others) := attributes.partition fun a => isDeclaration a.1
  let declared ← declarations.foldlM (fun declared (a, uri) => declare declared a uri) []
  let namespaces := declared ++ outer
  let _ ← namespaceOf namespaces name.qualifier
  let expanded ← others.mapM fun (a, _) => do
    return (← attributeNamespace namespaces a.qualifier, a.name)
  if let some (_, key) := repeated? expanded then throw (.repeatedAttribute key)
  let plain := (others.filter fun a => a.1.qualifier.isEmpty).map fun (a, value) => (a.name, value)
  return ⟨name, plain, namespaces, []⟩

/-! ## Content -/

/-- Makes a closed element the next child of the innermost open one, or the root. -/
def State.attach (s : State) (e : DocumentElement) : State :=
  match s.opened with
  | [] => { s with root := some e }
  | parent :: opened =>
    { s with opened := { parent with children := e :: parent.children } :: opened }

/-- Reads a start tag behind its bracket. -/
def startTag (s : State) (text : List Char) : Except DocumentFault State := do
  let (name, text) ← qname text
  let ((attributes, tagEnd), rest) ← tagRest [] text
  let outer := (s.opened.head?.map OpenElement.namespaces).getD []
  let element ← openElement outer name attributes
  match tagEnd with
  | .opened => return { s with rest, opened := element :: s.opened }
  | .closed => return State.attach { s with rest } element.close

/-- Reads an end tag behind its bracket and slash. -/
def endTag (s : State) (text : List Char) : Except DocumentFault State := do
  let (name, text) ← qname text
  let rest ← expect ">" (skipSpace text)
  match s.opened with
  | [] => throw .unexpectedMarkup
  | element :: opened =>
    if element.name = name then return State.attach { s with rest, opened } element.close
    else throw (.mismatchedTag element.name.text name.text)

/-- What follows a comment, behind its first mark. -/
def comment (text : List Char) : Except DocumentFault (List Char) := do
  let (content, rest) ← upTo "-->" text
  let doubled := (Text.splitAt? "--".toList content).isSome
  if doubled || content.getLast? == some '-' then throw .unexpectedMarkup
  return rest

/-- What follows an instruction, behind its first mark. -/
def instruction (text : List Char) : Except DocumentFault (List Char) := do
  if "xml ".toList.isPrefixOf text then throw .unexpectedMarkup
  let target := text.takeWhile fun c => isNameChar c || c == ':'
  if !isName target && target.head? != some ':' then throw .invalidName
  let (_, rest) ← upTo "?>" (skipSpace (text.drop target.length))
  return rest

/-- Reads the text inside of an element. -/
def characterData (text : List Char) : Except DocumentFault (List Char) := do
  let content := text.takeWhile (· != '<')
  if !content.all isChar then throw .invalidCharacter
  if (Text.splitAt? "]]>".toList content).isSome then throw .unexpectedMarkup
  let _ ← expand id content
  return text.dropWhile (· != '<')

/-- Reads one piece of markup or text. Outside of the root there are only spaces as text. -/
def step (s : State) : Except DocumentFault State :=
  let inside := !s.opened.isEmpty
  match s.rest with
  | '<' :: '!' :: '-' :: '-' :: text => do return { s with rest := ← comment text }
  | '<' :: '?' :: text => do return { s with rest := ← instruction text }
  | '<' :: '!' :: text =>
    if inside then do
      let (_, rest) ← upTo "]]>" (← expect "[CDATA[" text)
      return { s with rest }
    else .error .documentType
  | '<' :: '/' :: text => endTag s text
  | '<' :: text => if inside || s.root.isNone then startTag s text else .error .afterRoot
  | text =>
    if inside then do return { s with rest := ← characterData text }
    else
      match text with
      | c :: rest =>
        if isSpace c then .ok { s with rest }
        else .error (if s.root.isSome then .afterRoot else .noRoot)
      | [] => .error .noRoot

/-- Reads pieces up to the end. Each one takes at least a character. -/
def steps (s : State) : Except DocumentFault State :=
  if s.rest.isEmpty then .ok s
  else
    match step s with
    | .error fault => .error fault
    | .ok s' => if s'.rest.length < s.rest.length then steps s' else .error .unexpectedMarkup
termination_by s.rest.length

/-- What follows the declaration at the beginning, if there is one. -/
def dropDeclaration (text : List Char) : Except DocumentFault (List Char) := do
  if !"<?xml ".toList.isPrefixOf text then return text
  let pseudo (name : String) (text : List Char) : Except DocumentFault (List Char) := do
    let (_, text) ← qname (← expect name text >>= fun _ => pure text)
    let (_, text) ← quoted text
    if (text.head?.map isSpace).getD true || "?>".toList.isPrefixOf text then
      return skipSpace text
    else throw .unexpectedMarkup
  let optional (name : String) (text : List Char) : Except DocumentFault (List Char) :=
    if name.toList.isPrefixOf text then pseudo name text else .ok text
  let text ← pseudo "version" (skipSpace (text.drop 6))
  let text ← optional "standalone" (← optional "encoding" text)
  expect "?>" text

/-- The root element of a document. -/
def parse (text : String) : Except DocumentFault DocumentElement := do
  let rest ← dropDeclaration (Text.dropByteOrderMarks text.toList)
  let s ← steps { rest }
  if !s.opened.isEmpty then throw .unclosed
  match s.root with
  | some root => return root
  | none => throw .noRoot

end Document

end Xps
