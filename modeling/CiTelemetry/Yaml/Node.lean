/-
This file builds documents of indented text out of tokens: scalars, lists and
mappings, where a name given to one of them can stand for it later on.
-/

import CiTelemetry.Yaml.Token

namespace CiTelemetry

namespace Yaml

/-- What a tag tells about a part. -/
inductive TypeMark where
  /-- The part is text. -/
  | isText
  /-- The part is of a type that documents do not know of themselves. -/
  | isForeign
  deriving DecidableEq, Repr, Inhabited

/-- A document or a part of one. A scalar that is left out is plain and empty. -/
inductive Node where
  | scalar (text : String) (isPlain : Bool)
  | list (items : List Node)
  | mapping (fields : List (Node × Node))
  /-- A part with a tag; it is not marked again inside. -/
  | marked (mark : TypeMark) (node : Node)
  deriving Repr, Inhabited

namespace Node

/-- What is left out. -/
def missing : Node := scalar "" true

/-- What a part of a document is read from: the tokens, and the parts that have
names. -/
structure Source where
  tokens : List Token
  named : List (String × Node)
  deriving Inhabited

namespace Source

def head? (source : Source) : Option Token :=
  source.tokens.head?

def rest (source : Source) : Source :=
  { source with tokens := source.tokens.drop 1 }

/-- Whether one of some tokens comes next; the end counts as none. -/
def meets (source : Source) (tokens : List Token) : Bool :=
  source.head?.any tokens.contains

end Source

/-- What stands in front of a part: a name for it and its type. -/
structure Properties where
  anchor : Option String
  tag : Option String
  deriving Inhabited

/-- Splits off properties, one of each at most. -/
def properties (source : Source) : Properties × Source :=
  match source.tokens with
  | .anchor name :: .tag text :: rest => (⟨some name, some text⟩, { source with tokens := rest })
  | .tag text :: .anchor name :: rest => (⟨some name, some text⟩, { source with tokens := rest })
  | .anchor name :: rest => (⟨some name, none⟩, { source with tokens := rest })
  | .tag text :: rest => (⟨none, some text⟩, { source with tokens := rest })
  | _ => (⟨none, none⟩, source)

def Properties.isEmpty (properties : Properties) : Bool :=
  properties.anchor.isNone && properties.tag.isNone

/-- What a tag tells. One that begins with a single exclamation mark is a tag of
the document's own, and that mark alone tells nothing. -/
def markOf? (tag : String) : Option TypeMark :=
  if ["!!str", "!<tag:yaml.org,2002:str>"].contains tag then some .isText
  else
    match tag.toList with
    | ['!'] => none
    | '!' :: '!' :: _ => none
    | '!' :: '<' :: '!' :: _ => some .isForeign
    | '!' :: '<' :: _ => none
    | _ => some .isForeign

/-- A part with what its tag tells. -/
def tagged (properties : Properties) (node : Node) : Node :=
  match properties.tag.bind markOf? with
  | some mark => marked mark node
  | none => node

/-- A part without what its tag tells. -/
def bare : Node → Node
  | marked _ node => node
  | node => node

/-- Reads on with a part under its name. -/
def bound (properties : Properties) (node : Node) (source : Source) : Node × Source :=
  let node := tagged properties node
  match properties.anchor with
  | some name => (node, { source with named := (name, node) :: source.named })
  | none => (node, source)

mutual

/-- Reads a part. Outside of brackets it may be indented, and below a key a list
may begin at the column of the key. -/
def part? (isIndented isBelowKey : Bool) : (fuel : Nat) → Source → Option (Node × Source)
  | 0, _ => none
  | fuel + 1, source => do
    let (front, source) := properties source
    match source.head? with
    | some (.reference name) =>
      if front.isEmpty then (source.named.lookup name).map (·, source.rest) else none
    | some (.scalar text isPlain) => pure (bound front (scalar text isPlain) source.rest)
    | some .listStart => do
      let (items, after) ← inlineItems? true fuel source.rest
      pure (bound front (list items) after)
    | some .mappingStart => do
      let (fields, after) ← inlineFields? true fuel source.rest
      pure (bound front (mapping fields) after)
    | some .indentedList =>
      if isIndented then do
        let (items, after) ← items? fuel source.rest
        pure (bound front (list items) after)
      else none
    | some .indentedMapping =>
      if isIndented then do
        let (fields, after) ← fields? fuel source.rest
        pure (bound front (mapping fields) after)
      else none
    | other =>
      if isBelowKey && other == some .element then do
        let (items, after) ← itemsBelowKey? fuel source
        pure (bound front (list items) after)
      else if front.isEmpty then none
      else pure (bound front missing source)

/-- A part, or none of it before some tokens. -/
def partUnless? (ends : List Token) (isIndented isBelowKey : Bool) :
    (fuel : Nat) → Source → Option (Node × Source)
  | 0, _ => none
  | fuel + 1, source =>
    if source.meets ends then some (missing, source)
    else part? isIndented isBelowKey fuel source

/-- The elements of an indented list. -/
def items? : (fuel : Nat) → Source → Option (List Node × Source)
  | 0, _ => none
  | fuel + 1, source =>
    match source.head? with
    | some .element => do
      let (item, after) ← partUnless? [.element, .indentStop] true false fuel source.rest
      let (others, last) ← items? fuel after
      pure (item :: others, last)
    | some .indentStop => some ([], source.rest)
    | _ => none

/-- The elements of a list at the column of its key. -/
def itemsBelowKey? : (fuel : Nat) → Source → Option (List Node × Source)
  | 0, _ => none
  | fuel + 1, source =>
    match source.head? with
    | some .element => do
      let (item, after) ←
        partUnless? [.element, .key, .value, .indentStop] true false fuel source.rest
      let (others, last) ← itemsBelowKey? fuel after
      pure (item :: others, last)
    | _ => some ([], source)

/-- The fields of an indented mapping. -/
def fields? : (fuel : Nat) → Source → Option (List (Node × Node) × Source)
  | 0, _ => none
  | fuel + 1, source =>
    match source.head? with
    | some .key => do
      let (key, afterKey) ← partUnless? [.key, .value, .indentStop] true true fuel source.rest
      let (value, after) ← fieldValue? fuel afterKey
      let (others, last) ← fields? fuel after
      pure ((key, value) :: others, last)
    | some .indentStop => some ([], source.rest)
    | _ => none

/-- The value of a field of an indented mapping. -/
def fieldValue? : (fuel : Nat) → Source → Option (Node × Source)
  | 0, _ => none
  | fuel + 1, source =>
    if source.head? == some .value then
      partUnless? [.key, .value, .indentStop] true true fuel source.rest
    else some (missing, source)

/-- The elements of a list in brackets; an element with a colon is a mapping of
one field. -/
def inlineItems? (isFirst : Bool) : (fuel : Nat) → Source → Option (List Node × Source)
  | 0, _ => none
  | fuel + 1, source =>
    if source.head? == some .listStop then some ([], source.rest)
    else if !isFirst && source.head? != some .comma then none
    else
      let source := if isFirst then source else source.rest
      match source.head? with
      | some .listStop => some ([], source.rest)
      | some .key => do
        let (key, afterKey) ← partUnless? [.value, .comma, .listStop] false false fuel source.rest
        let (value, after) ← inlineValue? [.comma, .listStop] fuel afterKey
        let (others, last) ← inlineItems? false fuel after
        pure (mapping [(key, value)] :: others, last)
      | _ => do
        let (item, after) ← part? false false fuel source
        let (others, last) ← inlineItems? false fuel after
        pure (item :: others, last)

/-- The fields of a mapping in braces; a field may be a key alone. -/
def inlineFields? (isFirst : Bool) :
    (fuel : Nat) → Source → Option (List (Node × Node) × Source)
  | 0, _ => none
  | fuel + 1, source =>
    if source.head? == some .mappingStop then some ([], source.rest)
    else if !isFirst && source.head? != some .comma then none
    else
      let source := if isFirst then source else source.rest
      match source.head? with
      | some .mappingStop => some ([], source.rest)
      | some .key => do
        let (key, afterKey) ←
          partUnless? [.value, .comma, .mappingStop] false false fuel source.rest
        let (value, after) ← inlineValue? [.comma, .mappingStop] fuel afterKey
        let (others, last) ← inlineFields? false fuel after
        pure ((key, value) :: others, last)
      | _ => do
        let (key, after) ← part? false false fuel source
        let (others, last) ← inlineFields? false fuel after
        pure ((key, missing) :: others, last)

/-- The value of a field in brackets or braces. -/
def inlineValue? (ends : List Token) : (fuel : Nat) → Source → Option (Node × Source)
  | 0, _ => none
  | fuel + 1, source =>
    if source.head? == some .value then partUnless? ends false false fuel source.rest
    else some (missing, source)

end

/-! ### Documents -/

/-- The node of a document, and what is after it. -/
def content? (tokens : List Token) : Option (Node × List Token) :=
  let ends : List Token := [.directive true, .directive false, .documentStart, .documentStop]
  if tokens.isEmpty || tokens.head?.any ends.contains then some (missing, tokens)
  else
    (part? true false (4 * tokens.length + 4) ⟨tokens, []⟩).map fun (node, source) =>
      (node, source.tokens)

/-- The tokens after the directives in front of a document. There may be none, or
the document begins with its mark; the version is told once at most. -/
def afterDirectives? (tokens : List Token) : Option (List Token) :=
  let isDirective (token : Token) : Bool := token == .directive true || token == .directive false
  if 1 < (tokens.takeWhile isDirective).count (.directive true) then none
  else
    match tokens.dropWhile isDirective with
    | .documentStart :: rest => some rest
    | rest => if rest.length = tokens.length then some tokens else none

/-- The node of a text that holds one document. A text without any is like a
document in which everything is left out. -/
def ofTokens? (tokens : List Token) : Option Node := do
  let body ← afterDirectives? tokens
  if body.length = tokens.length && body.head? == some .documentStop then none
  else do
    let (node, after) ← content? body
    if after.all (· == .documentStop) then pure node else none

/-- Reads a text that holds one document. -/
def read? (text : String) : Option Node :=
  (tokens? text.toList).bind ofTokens?

end Node

end Yaml

end CiTelemetry
