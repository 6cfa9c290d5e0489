import Dialogue.Yaml.Layout
import Dialogue.Yaml.Node

/-!
# YAML documents

`document?` builds the node of the only document of a text from its tokens. Anchors name nodes and
aliases repeat them. A node repeats nothing that contains it, the aliases of a document may not
outnumber its anchors by far, and what is repeated is bounded.
-/

namespace Dialogue.Yaml

/-! ### State -/

/-- What is known while nodes are built. -/
structure Build where
  /-- The tokens that are left. -/
  tokens : List Token
  /-- What the handles of tags stand for. -/
  handles : List (String × String)
  /-- The anchors met, the latest first. -/
  names : List (String × Nat)
  /-- The nodes of the anchors that are complete. -/
  parts : List (Nat × Part)
  aliases : Nat
  /-- The size of all that has been repeated. -/
  repeated : Nat

/-- Builds part of a document; `none` if it is malformed. -/
abbrev Builder (α : Type) := StateT Build Option α

/-- A malformed document. -/
def malformed {α : Type} : Builder α := fun _ => none

/-- The next token. Where the layout is not sound there is none. -/
def peek : Builder Token := fun b => b.tokens.head?.map (·, b)

/-- Skips the next token. -/
def skip : Builder Unit := fun b => some ((), { b with tokens := b.tokens.drop 1 })

/-- The greatest size of what a document may repeat. -/
def repeatLimit : Nat := 1000000

/-- The node of an alias: the one that the latest anchor of the name has, if that is complete. -/
def repeatNode (name : String) : Builder Part := fun b => do
  let p ← b.parts.lookup (← b.names.lookup name)
  let repeated := b.repeated + p.size
  if repeatLimit < repeated then none
  return (p, { b with aliases := b.aliases + 1, repeated })

/-- Notes an anchor and gives it a number. -/
def openAnchor (name : String) : Builder Nat := fun b =>
  some (b.names.length, { b with names := (name, b.names.length) :: b.names })

/-- Notes the node of an anchor. -/
def closeAnchor (anchor : Option Nat) (p : Part) : Builder Unit := fun b =>
  match anchor with
  | some n => some ((), { b with parts := (n, p) :: b.parts })
  | none => some ((), b)

/-- What a handle and the rest of a tag stand for. A handle of its own has to be declared. -/
def tagOf? (handles : List (String × String)) (handle rest : String) : Option Tag :=
  match handles.lookup handle with
  | some meaning => some (.ofName (meaning ++ rest))
  | none =>
    if handle = "!!" then some (.ofName (Tag.coreMeaning ++ rest))
    else if isHandle handle.toList then none
    else some (.ofName (handle ++ rest))

/-- What a handle and the rest of a tag stand for here. -/
def tagHere (handle rest : String) : Builder Tag := fun b =>
  (tagOf? b.handles handle rest).map (·, b)

/-! ### Nodes -/

/-- What stands before a node. -/
structure Properties where
  anchor : Option Nat
  tag : Option Tag

/-- Whether anything stands before the node. -/
def Properties.given (p : Properties) : Bool := p.anchor.isSome || p.tag.isSome

/-- The properties before a node: an anchor and a tag in either order. -/
def properties : Builder Properties := do
  match ← peek with
  | .anchor name _ => do
    skip
    let anchor ← openAnchor name
    match ← peek with
    | .tag handle rest _ => do
      skip
      return ⟨some anchor, some (← tagHere handle rest)⟩
    | _ => return ⟨some anchor, none⟩
  | .tag handle rest _ => do
    skip
    let tag ← tagHere handle rest
    match ← peek with
    | .anchor name _ => do
      skip
      return ⟨some (← openAnchor name), some tag⟩
    | _ => return ⟨none, some tag⟩
  | _ => return ⟨none, none⟩

/-- A scalar under its properties. -/
def Properties.scalar (p : Properties) (style : Style) (text : String) : Part :=
  let s : Scalar := ⟨style, p.tag.getD .untagged, text⟩
  .scalar (if p.anchor.isSome then s.anchored else s)

/-- A node, unless one of some tokens shows that it is missing. -/
def unlessEnds (ends : Token → Bool) (node : Builder Part) : Builder Part := do
  if ends (← peek) then return .missing else node

/-- The value behind a key, if there is a colon. -/
def valueBehind (ends : Token → Bool) (node : Builder Part) : Builder Part := do
  match ← peek with
  | .value => do
    skip
    unlessEnds ends node
  | _ => return .missing

/-- Ends a value in a map in lines. -/
def endsInMap (t : Token) : Bool := t = .key || t = .value || t = .blockEnd

/-- Ends an item in a list in lines. -/
def endsInList (t : Token) : Bool := t = .item || t = .blockEnd

/-- Ends an item in a list in lines that is not indented. -/
def endsInFlatList (t : Token) : Bool := t = .item || endsInMap t

/-- Ends a value in braces. -/
def endsInBraces (t : Token) : Bool := t = .comma || t = .closeBrace

/-- Ends a value of a pair in brackets. -/
def endsInPair (t : Token) : Bool := t = .comma || t = .closeBracket

/-- A comma, except before the first of some items. -/
def commaUnless (first : Bool) : Builder Unit := do
  if first then return ()
  match ← peek with
  | .comma => skip
  | _ => malformed

mutual
/-- A node. In lines, lists and maps in lines may begin; `flat` tells that a list may begin without
indentation. -/
def node : Nat → Bool → Bool → Builder Part
  | 0, _, _ => malformed
  | fuel + 1, inLines, flat => do
    match ← peek with
    | .aliasOf name => do
      skip
      repeatNode name
    | _ => do
      let p ← properties
      let part ← content fuel inLines flat p
      closeAnchor p.anchor part
      return part
/-- A node behind its properties. -/
def content : Nat → Bool → Bool → Properties → Builder Part
  | 0, _, _, _ => malformed
  | fuel + 1, inLines, flat, p => do
    match ← peek, inLines, flat with
    | .item, _, true => return .list (← flatItems fuel [])
    | .scalar style text, _, _ => do
      skip
      return p.scalar style text
    | .openBracket, _, _ => do
      skip
      return .list (← bracketItems fuel true [])
    | .openBrace, _, _ => do
      skip
      return .map (← braceEntries fuel true [])
    | .list, true, _ => do
      skip
      return .list (← blockItems fuel [])
    | .map, true, _ => do
      skip
      return .map (← blockEntries fuel [])
    | _, _, _ => if p.given then return p.scalar .plain "" else malformed
/-- The items of a list in lines, those built so far in reverse. -/
def blockItems : Nat → List Part → Builder (List Part)
  | 0, _ => malformed
  | fuel + 1, built => do
    match ← peek with
    | .blockEnd => do
      skip
      return built.reverse
    | .item => do
      skip
      blockItems fuel ((← unlessEnds endsInList (node fuel true false)) :: built)
    | _ => malformed
/-- The items of a list in lines that is not indented, those built so far in reverse. -/
def flatItems : Nat → List Part → Builder (List Part)
  | 0, _ => malformed
  | fuel + 1, built => do
    match ← peek with
    | .item => do
      skip
      flatItems fuel ((← unlessEnds endsInFlatList (node fuel true false)) :: built)
    | _ => return built.reverse
/-- The entries of a map in lines, those built so far in reverse. -/
def blockEntries : Nat → List (Part × Part) → Builder (List (Part × Part))
  | 0, _ => malformed
  | fuel + 1, built => do
    match ← peek with
    | .key => do
      skip
      let key ← unlessEnds endsInMap (node fuel true true)
      blockEntries fuel ((key, ← valueBehind endsInMap (node fuel true true)) :: built)
    | .value =>
      blockEntries fuel
        ((.missing, ← valueBehind endsInMap (node fuel true true)) :: built)
    | .blockEnd => do
      skip
      return built.reverse
    | _ => malformed
/-- The items of a list in brackets, those built so far in reverse. -/
def bracketItems : Nat → Bool → List Part → Builder (List Part)
  | 0, _, _ => malformed
  | fuel + 1, first, built => do
    if (← peek) = .closeBracket then
      skip
      return built.reverse
    commaUnless first
    match ← peek with
    | .closeBracket => do
      skip
      return built.reverse
    | .key => do
      skip
      bracketItems fuel false (.map [← pair fuel] :: built)
    | _ => bracketItems fuel false ((← node fuel false false) :: built)
/-- A pair in a list in brackets, behind the mark of its key. -/
def pair : Nat → Builder (Part × Part)
  | 0 => malformed
  | fuel + 1 => do
    let t ← peek
    let key ←
      if t = .value || endsInPair t then do
        skip
        pure Part.missing
      else node fuel false false
    return (key, ← valueBehind endsInPair (node fuel false false))
/-- The entries of a map in braces, those built so far in reverse. -/
def braceEntries : Nat → Bool → List (Part × Part) → Builder (List (Part × Part))
  | 0, _, _ => malformed
  | fuel + 1, first, built => do
    if (← peek) = .closeBrace then
      skip
      return built.reverse
    commaUnless first
    match ← peek with
    | .closeBrace => do
      skip
      return built.reverse
    | .key => do
      skip
      let key ← unlessEnds (fun t => t = .value || endsInBraces t) (node fuel false false)
      braceEntries fuel false
        ((key, ← valueBehind endsInBraces (node fuel false false)) :: built)
    | .value =>
      braceEntries fuel false
        ((.missing, ← valueBehind endsInBraces (node fuel false false)) :: built)
    | _ => braceEntries fuel false ((← node fuel false false, .missing) :: built)
end

/-! ### Documents -/

/-- Whether a token belongs in front of a document. -/
def Token.opensDocument : Token → Bool
  | .directive _ => true
  | .documentStart => true
  | _ => false

/-- Whether a token ends a document. -/
def Token.endsDocument : Token → Bool
  | .documentEnd => true
  | .textEnd => true
  | t => t.opensDocument

/-- What directives declare, and the tokens behind them; none if one is repeated. -/
def declarations? (versioned : Bool) (handles : List (String × String)) :
    List Token → Option (List (String × String) × List Token)
  | .directive .version :: ts =>
    if versioned then none else declarations? true handles ts
  | .directive (.handle name meaning) :: ts =>
    if (handles.lookup name).isSome then none
    else declarations? versioned ((name, meaning) :: handles) ts
  | ts => some (handles, ts)

/-- Nothing built yet, from some tokens. -/
def Build.start (handles : List (String × String)) (tokens : List Token) : Build :=
  ⟨tokens, handles, [], [], 0, 0⟩

/-- The node of a document that begins at the first of some tokens, and the state behind it. -/
def rootNode (handles : List (String × String)) (tokens : List Token) : Option (Part × Build) :=
  (node (4 * tokens.length + 16) true false).run (.start handles tokens)

/-- The node of the first document. -/
def firstDocument? (tokens : List Token) : Option (Part × Build) :=
  match tokens.dropWhile (· = .documentEnd) with
  | [] => none
  | t :: ts =>
    if t = .textEnd then some (.missing, .start [] (t :: ts))
    else if t.opensDocument then do
      let (handles, rest) ← declarations? false [] (t :: ts)
      match rest with
      | .documentStart :: body =>
        if (← body.head?).endsDocument then some (.missing, .start handles body)
        else rootNode handles body
      | _ => none
    else rootNode [] (t :: ts)

/-- Whether a node begins at some tokens, other than an alias. -/
def beginsNode (handles : List (String × String)) (tokens : List Token) : Bool :=
  match (properties.run (.start handles tokens) : Option (Properties × Build)) with
  | none => false
  | some (p, b) =>
    match b.tokens with
    | [] => false
    | .scalar _ _ :: _ => true
    | .openBracket :: _ => true
    | .openBrace :: _ => true
    | .list :: _ => true
    | .map :: _ => true
    | _ => p.given

/-- Whether a further document begins at some tokens. -/
def beginsDocument (tokens : List Token) : Bool :=
  match declarations? false [] tokens with
  | some (handles, .documentStart :: body) =>
    (body.head?.any Token.endsDocument) || beginsNode handles body
  | _ => false

/-- Whether a document may be followed by some tokens. No further document may begin; but what is
no document is not looked at. -/
def mayFollow (tokens : List Token) : Bool :=
  match tokens with
  | [] => false
  | .directive _ :: _ => false
  | .documentStart :: _ => !beginsDocument tokens
  | .documentEnd :: _ =>
    match tokens.dropWhile (· = .documentEnd) with
    | [] => true
    | t :: ts =>
      if t.opensDocument then !beginsDocument (t :: ts) else !beginsNode [] (t :: ts)
  | _ => true

/-- Whether the aliases do not outnumber the anchors by far. -/
def Build.isModest (b : Build) : Bool := b.aliases < 100 || b.aliases ≤ 10 * b.names.length

/-- The node of the only document of a text. -/
def document? (text : String) : Option Node := do
  let (p, b) ← firstDocument? (Layout.tokens text)
  if b.isModest && mayFollow b.tokens then some p.node else none

end Dialogue.Yaml
