import Lightpath.Xml.Element
import Lightpath.Xml.Character

/-!
# Reading documents

A document is read one character at a time. The reader's state is what the next character means (`Mode`)
and what has been built so far (`Draft`); a character that has no meaning there makes the document
malformed, and so does an end of the text inside an element or inside markup. Comments and processing
instructions leave no trace, so the text on both sides of them is one text. A document type declaration
leaves none either. One with declarations between its brackets is refused here, because what it declares
(entities, defaults of attributes) is left out: no reply of a device has a document type declaration.
-/

namespace Lightpath.Xml

/-! ## Names and namespaces -/

/-- The namespaces that prefixes stand for, innermost first; the empty prefix has the default one. -/
abbrev Scope := List (String × String)

/-- The namespace of the prefix `xml`. -/
def xmlSpace : String := "http://www.w3.org/XML/1998/namespace"

/-- The namespace of the prefix `xmlns`. -/
def xmlnsSpace : String := "http://www.w3.org/2000/xmlns/"

/-- The bindings outside every element. -/
def outerScope : Scope := [("xml", xmlSpace)]

/-- Splits a name at its colon; there is at most one, and a name starts on either side of it. -/
def splitName (raw : List Char) : Option (Option String × String) :=
  let start := raw.takeWhile (· ≠ ':')
  match raw.dropWhile (· ≠ ':') with
  | [] => some (none, String.ofList start)
  | _ :: rest =>
    match rest with
    | c :: _ =>
      if isNameStart c && !rest.contains ':' && !start.isEmpty then
        some (some (String.ofList start), String.ofList rest)
      else none
    | [] => none

/-- Whether a namespace may be bound: the separator of written names must not occur in it. -/
def bindable (uri : String) : Bool :=
  !uri.toList.contains '}'

/-- The scope inside a start tag that holds an attribute; other attributes bind nothing. -/
def bind (scope : Scope) (name : Option String × String) (value : String) : Option Scope :=
  match name with
  | (none, "xmlns") =>
    if value = xmlSpace ∨ value = xmlnsSpace ∨ !bindable value then none else some (("", value) :: scope)
  | (some "xmlns", p) =>
    if p = "xmlns" ∨ value = "" ∨ !bindable value then none
    else if p = "xml" then (if value = xmlSpace then some scope else none)
    else if value = xmlSpace ∨ value = xmlnsSpace then none
    else some ((p, value) :: scope)
  | _ => some scope

/-- Whether an attribute declares a namespace. -/
def isDeclaration (name : Option String × String) : Bool :=
  name == (none, "xmlns") || name.1 == some "xmlns"

/-- The full name of an element. -/
def elementName (scope : Scope) : Option String × String → Option Name
  | (none, n) =>
    match scope.lookup "" with
    | some "" => some ⟨none, n⟩
    | uri => some ⟨uri, n⟩
  | (some p, n) => (scope.lookup p).map fun uri => ⟨some uri, n⟩

/-- The full name of an attribute; one without a prefix is in no namespace. -/
def attributeName (scope : Scope) : Option String × String → Option Name
  | (none, n) => some ⟨none, n⟩
  | (some p, n) => (scope.lookup p).map fun uri => ⟨some uri, n⟩

/-- Whether no two entries of a list are equal. -/
def allDistinct {α : Type} [BEq α] : List α → Bool
  | [] => true
  | a :: rest => !rest.contains a && allDistinct rest

/-! ## State -/

/-- A start tag as it is written: its name and its attributes, last attribute first. -/
structure Tag where
  raw : List Char
  attributes : List (List Char × List Char)
  deriving DecidableEq, Repr

/-- An element that is still open; its text and its children are kept last first. -/
structure Frame where
  raw : List Char
  name : Name
  attributes : List (Name × String)
  scope : Scope
  text : List Char
  children : List Element

/-- What has been built: the open elements, innermost first, and the root once it is closed. -/
structure Draft where
  frames : List Frame
  root : Option Element
  doctype : Bool

/-- Where a reference stands. -/
inductive Place where
  | content
  | value (tag : Tag) (name : List Char) (quote : Char) (value : List Char)
  deriving DecidableEq, Repr

/-- What the next character means. Texts that are being collected are kept last character first. -/
inductive Mode where
  /-- nothing has been read -/
  | start
  /-- between markup, behind so many closing brackets -/
  | content (brackets : Nat)
  /-- behind `<`; the flag says that it is the first character of the document -/
  | less (first : Bool)
  | startName (raw : List Char)
  /-- inside a start tag; the flag says that white space stands just before -/
  | tag (t : Tag) (gap : Bool)
  | attributeName (t : Tag) (raw : List Char)
  | equals (t : Tag) (name : List Char)
  | quote (t : Tag) (name : List Char)
  | value (t : Tag) (name : List Char) (quote : Char) (value : List Char)
  /-- behind the slash of an empty element -/
  | emptyEnd (t : Tag)
  | endName (raw : List Char)
  | endGap (name : List Char)
  /-- behind `<!` -/
  | bang (seen : List Char)
  | comment (dashes : Nat)
  | cdata (brackets : Nat)
  | target (first : Bool) (raw : List Char)
  /-- inside a processing instruction; the flag says that a question mark stands just before -/
  | instruction (mark : Bool)
  /-- behind the question mark that follows a target -/
  | instructionEnd
  | declaration (mark : Bool) (body : List Char)
  | doctype (quote : Option Char) (body : List Char)
  | reference (place : Place) (name : List Char)

/-- The reader's state. -/
structure State where
  mode : Mode
  draft : Draft

/-- The state before the first character. -/
def State.initial : State := ⟨.start, ⟨[], none, false⟩⟩

/-! ## Building -/

/-- Adds a character of running text; text behind a child is not kept. -/
def Draft.addText (d : Draft) (c : Char) : Option Draft :=
  match d.frames with
  | [] => none
  | f :: outer =>
    match f.children with
    | [] => some { d with frames := { f with text := c :: f.text } :: outer }
    | _ => some d

/-- Adds a character that stands between markup; outside the root only white space may stand there. -/
def Draft.addContent (d : Draft) (c : Char) : Option Draft :=
  match d.frames with
  | [] => if isGap c then some d else none
  | _ => d.addText c

/-- Opens an element. -/
def Draft.openTag (d : Draft) (t : Tag) : Option Draft := do
  let outer := match d.frames with
    | f :: _ => f.scope
    | [] => outerScope
  let written := t.attributes.reverse
  if !allDistinct (written.map Prod.fst) then none
  let attributes ← written.mapM fun a => (splitName a.1).map (·, String.ofList a.2)
  let scope ← attributes.foldlM (fun s a => bind s a.1 a.2) outer
  let name ← elementName scope (← splitName t.raw)
  let named ← (attributes.filter fun a => !isDeclaration a.1).mapM fun a =>
    (Xml.attributeName scope a.1).map (·, a.2)
  if !allDistinct (named.map Prod.fst) then none
  return { d with frames := ⟨t.raw, name, named, scope, [], []⟩ :: d.frames }

/-- The element that an open element becomes when it is closed. -/
def Frame.close (f : Frame) : Element :=
  ⟨f.name, f.attributes, String.ofList f.text.reverse, f.children.reverse⟩

/-- Closes the innermost element. -/
def Draft.closeTag (d : Draft) : Option Draft :=
  match d.frames with
  | [] => none
  | [f] => some { d with frames := [], root := some f.close }
  | f :: g :: outer => some { d with frames := { g with children := f.close :: g.children } :: outer }

/-- Adds closing brackets to the running text. -/
def Draft.addBrackets (d : Draft) : Nat → Option Draft
  | 0 => some d
  | n + 1 => (d.addText ']').bind (·.addBrackets n)

/-! ## Declarations -/

/-- A character that the value of a pseudo-attribute may hold. -/
def isPseudoChar (c : Char) : Bool :=
  c.isAlphanum || c == '.' || c == '-' || c == '_'

/-- The pseudo-attributes of a declaration. White space stands before each of them and may stand around
the equals sign. -/
def pseudoAttributes : Nat → List Char → Option (List (List Char × List Char))
  | 0, _ => none
  | fuel + 1, cs =>
    match cs with
    | [] => some []
    | c :: _ =>
      if !isGap c then none
      else
        match cs.dropWhile isGap with
        | [] => some []
        | body =>
          let name := body.takeWhile fun c => !isGap c && c != '='
          match (body.drop name.length).dropWhile isGap with
          | '=' :: rest =>
            match rest.dropWhile isGap with
            | q :: rest =>
              if q == '"' || q == '\'' then
                let value := rest.takeWhile (· ≠ q)
                match rest.drop value.length with
                | _ :: rest =>
                  if value.all isPseudoChar then
                    (pseudoAttributes fuel rest).map ((name, value) :: ·)
                  else none
                | [] => none
              else none
            | [] => none
          | _ => none

/-- Whether a text is what stands between `<?xml` and `?>`: a version, then perhaps an encoding, then
perhaps whether the document stands alone. -/
def isDeclarationBody (cs : List Char) : Bool :=
  let encodingOk (v : List Char) : Bool := match v with
    | c :: _ => c.isAlpha
    | [] => false
  let aloneOk (v : List Char) : Bool := v == "yes".toList || v == "no".toList
  let named (a : List Char × List Char) (n : String) : Bool := a.1 == n.toList
  match pseudoAttributes (cs.length + 1) cs with
  | some [v] => named v "version"
  | some [v, a] =>
    named v "version"
      && ((named a "encoding" && encodingOk a.2) || (named a "standalone" && aloneOk a.2))
  | some [v, e, a] =>
    named v "version" && named e "encoding" && encodingOk e.2 && named a "standalone" && aloneOk a.2
  | _ => false

/-- Drops a quoted text at the front. -/
def dropLiteral : List Char → Option (List Char)
  | q :: rest =>
    if q == '"' || q == '\'' then
      match rest.dropWhile (· ≠ q) with
      | _ :: more => some more
      | [] => none
    else none
  | [] => none

/-- Drops white space of at least one character at the front. -/
def dropGap : List Char → Option (List Char)
  | c :: rest => if isGap c then some (rest.dropWhile isGap) else none
  | [] => none

/-- Whether a text is what stands between `<!DOCTYPE` and `>`: a name, perhaps an external identifier, and
perhaps brackets with nothing inside. -/
def isDoctypeBody (cs : List Char) : Bool :=
  match dropGap cs with
  | some (c :: rest) =>
    if !isNameStart c then false
    else
      let tail := rest.dropWhile isNameMore
      let external : Option (List Char) := do
        let body ← dropGap tail
        if body.take 6 = "SYSTEM".toList then dropLiteral (← dropGap (body.drop 6))
        else if body.take 6 = "PUBLIC".toList then
          dropLiteral (← dropGap (← dropLiteral (← dropGap (body.drop 6))))
        else none
      match (external.getD tail).dropWhile isGap with
      | [] => true
      | '[' :: inner =>
        match inner.dropWhile isGap with
        | ']' :: after => after.all isGap
        | _ => false
      | _ => false
  | _ => false

/-! ## Steps -/

/-- What `<!` starts, once enough of it is read. -/
def bangStep (d : Draft) (seen : List Char) (c : Char) : Option State :=
  let now := (c :: seen).reverse
  if now = "--".toList then some ⟨.comment 0, d⟩
  else if now = "[CDATA[".toList then
    match d.frames with
    | [] => none
    | _ => some ⟨.cdata 0, d⟩
  else if now = "DOCTYPE".toList then
    if d.frames.isEmpty && d.root.isNone && !d.doctype then some ⟨.doctype none [], { d with doctype := true }⟩
    else none
  else if now.isPrefixOf "[CDATA[".toList || now.isPrefixOf "DOCTYPE".toList || now = ['-'] then
    some ⟨.bang (c :: seen), d⟩
  else none

/-- What follows the target of a processing instruction. Only a declaration has the target `xml`, and only
the start of the document has a declaration. -/
def afterTarget (d : Draft) (first : Bool) (raw : List Char) (c : Char) : Option State :=
  let name := raw.reverse
  if name.map Char.toLower = "xml".toList then
    if first && name = "xml".toList && isGap c then some ⟨.declaration false [c], d⟩ else none
  else if isGap c then some ⟨.instruction false, d⟩
  else if c = '?' then some ⟨.instructionEnd, d⟩
  else none

/-- Adds the character of a reference to the place where the reference stands. -/
def endReference (d : Draft) (place : Place) (name : List Char) : Option State := do
  let c ← referenced? name
  match place with
  | .content => (d.addText c).map fun d => ⟨.content 0, d⟩
  | .value t n q v => some ⟨.value t n q (c :: v), d⟩

/-- Closes the innermost element by an end tag of its name. -/
def endElement (d : Draft) (name : List Char) : Option State :=
  match d.frames with
  | f :: _ => if f.raw = name then d.closeTag.map fun d => ⟨.content 0, d⟩ else none
  | [] => none

/-- A character between markup. -/
def contentStep (d : Draft) (brackets : Nat) (c : Char) : Option State :=
  if c = '<' then some ⟨.less false, d⟩
  else if c = '&' then
    match d.frames with
    | [] => none
    | _ => some ⟨.reference .content [], d⟩
  else if c = '>' ∧ 2 ≤ brackets then none
  else if isAllowed c then
    (d.addContent c).map fun d => ⟨.content (if c = ']' then min 2 (brackets + 1) else 0), d⟩
  else none

/-- A character behind `<`. -/
def lessStep (d : Draft) (first : Bool) (c : Char) : Option State :=
  if c = '/' then some ⟨.endName [], d⟩
  else if c = '!' then some ⟨.bang [], d⟩
  else if c = '?' then some ⟨.target first [], d⟩
  else if isNameStart c && !(d.frames.isEmpty && d.root.isSome) then some ⟨.startName [c], d⟩
  else none

/-- A character inside a start tag, between its attributes. -/
def tagStep (d : Draft) (t : Tag) (gap : Bool) (c : Char) : Option State :=
  if isGap c then some ⟨.tag t true, d⟩
  else if c = '>' then (d.openTag t).map fun d => ⟨.content 0, d⟩
  else if c = '/' then some ⟨.emptyEnd t, d⟩
  else if gap && isNameStart c then some ⟨.attributeName t [c], d⟩
  else none

/-- Reads one character. -/
def step (s : State) (c : Char) : Option State :=
  let d := s.draft
  match s.mode with
  | .start => if c = '<' then some ⟨.less true, d⟩ else contentStep d 0 c
  | .content brackets => contentStep d brackets c
  | .less first => lessStep d first c
  | .startName raw =>
    if isNameMore c then some ⟨.startName (c :: raw), d⟩ else tagStep d ⟨raw.reverse, []⟩ false c
  | .tag t gap => tagStep d t gap c
  | .attributeName t raw =>
    if isNameMore c then some ⟨.attributeName t (c :: raw), d⟩
    else if c = '=' then some ⟨.quote t raw.reverse, d⟩
    else if isGap c then some ⟨.equals t raw.reverse, d⟩
    else none
  | .equals t name =>
    if isGap c then some s else if c = '=' then some ⟨.quote t name, d⟩ else none
  | .quote t name =>
    if isGap c then some s
    else if c = '"' ∨ c = '\'' then some ⟨.value t name c [], d⟩
    else none
  | .value t name q v =>
    if c = q then some ⟨.tag { t with attributes := (name, v.reverse) :: t.attributes } false, d⟩
    else if c = '<' then none
    else if c = '&' then some ⟨.reference (.value t name q v) [], d⟩
    else if isGap c then some ⟨.value t name q (' ' :: v), d⟩
    else if isAllowed c then some ⟨.value t name q (c :: v), d⟩
    else none
  | .emptyEnd t =>
    if c = '>' then
      ((d.openTag t).bind Draft.closeTag).map fun d => ⟨.content 0, d⟩
    else none
  | .endName raw =>
    if isNameMore c then some ⟨.endName (c :: raw), d⟩
    else if c = '>' then endElement d raw.reverse
    else if isGap c then some ⟨.endGap raw.reverse, d⟩
    else none
  | .endGap name =>
    if isGap c then some s else if c = '>' then endElement d name else none
  | .bang seen => bangStep d seen c
  | .comment dashes =>
    if dashes = 2 then (if c = '>' then some ⟨.content 0, d⟩ else none)
    else if c = '-' then some ⟨.comment (dashes + 1), d⟩
    else if isAllowed c then some ⟨.comment 0, d⟩
    else none
  | .cdata brackets =>
    if c = '>' ∧ brackets = 2 then some ⟨.content 0, d⟩
    else if c = ']' then
      if brackets = 2 then (d.addText ']').map fun d => ⟨.cdata 2, d⟩
      else some ⟨.cdata (brackets + 1), d⟩
    else if isAllowed c then
      ((d.addBrackets brackets).bind (·.addText c)).map fun d => ⟨.cdata 0, d⟩
    else none
  | .target first raw =>
    -- a target has no namespace, so it cannot hold a colon
    match raw with
    | [] => if isNameStart c && c != ':' then some ⟨.target first [c], d⟩ else none
    | _ =>
      if isNameMore c && c != ':' then some ⟨.target first (c :: raw), d⟩ else afterTarget d first raw c
  | .instruction mark =>
    if c = '>' ∧ mark then some ⟨.content 0, d⟩
    else if isAllowed c then some ⟨.instruction (c = '?'), d⟩
    else none
  | .instructionEnd => if c = '>' then some ⟨.content 0, d⟩ else none
  | .declaration mark body =>
    if c = '>' ∧ mark then
      if isDeclarationBody (body.drop 1).reverse then some ⟨.content 0, d⟩ else none
    else if isAllowed c then some ⟨.declaration (c = '?') (c :: body), d⟩
    else none
  | .doctype q body =>
    match q with
    | some q =>
      if isAllowed c then some ⟨.doctype (if c = q then none else some q) (c :: body), d⟩ else none
    | none =>
      if c = '>' then (if isDoctypeBody body.reverse then some ⟨.content 0, d⟩ else none)
      else if c = '"' ∨ c = '\'' then some ⟨.doctype (some c) (c :: body), d⟩
      else if isAllowed c then some ⟨.doctype none (c :: body), d⟩
      else none
  | .reference place name =>
    if c = ';' then endReference d place name.reverse
    else if isNameMore c || c = '#' then some ⟨.reference place (c :: name), d⟩
    else none

/-! ## Documents -/

/-- Makes every line end a single line feed. -/
def unifyLineEnds : List Char → List Char
  | [] => []
  | '\r' :: '\n' :: rest => '\n' :: unifyLineEnds rest
  | '\r' :: rest => '\n' :: unifyLineEnds rest
  | c :: rest => c :: unifyLineEnds rest

/-- Reads characters from a state on. -/
def run (s : State) (cs : List Char) : Option State :=
  cs.foldlM step s

theorem run_append (s : State) (cs ds : List Char) :
    run s (cs ++ ds) = (run s cs).bind (run · ds) := by
  simp only [run, List.foldlM_append]
  rfl

/-- The root of a document whose end has been reached. -/
def State.document? (s : State) : Option Element :=
  match s.mode with
  | .content _ => if s.draft.frames.isEmpty then s.draft.root else none
  | _ => none

/-- Reads a document; a byte order mark may stand in front of it. -/
def parseChars (cs : List Char) : Option Element :=
  let body := match cs with
    | '\uFEFF' :: rest => rest
    | _ => cs
  (run State.initial (unifyLineEnds body)).bind State.document?

/-- Reads a document, when it is well-formed. -/
def parse? (s : String) : Option Element :=
  parseChars s.toList

end Lightpath.Xml
