import Vitae.Keyed
import Vitae.Yaml.Tag
import Vitae.Yaml.Token.Lexer

/-! The nodes of a document.

`Node.ofTokens` reads the tokens of a text as the one document that it holds. A node
with an anchor can be meant again by an alias; an alias within the node itself is
an endless value (`Node.endless`). Every step of reading takes fuel, and a token allows for
more steps than are ever taken at it. -/

namespace Vitae.Yaml

inductive Node where
  | scalar (tag : Tag) (text : String) (start : Mark)
  | sequence (tag : Tag) (items : List Node) (start : Mark)
  | mapping (tag : Tag) (entries : List (Node × Node)) (start : Mark)
  /-- A node that an alias within it stands for. -/
  | endless (start : Mark)
deriving Inhabited

namespace Node

def start : Node → Mark
  | .scalar _ _ m => m
  | .sequence _ _ m => m
  | .mapping _ _ m => m
  | .endless m => m

/-- How reports call a kind of node. -/
def label : Node → String
  | .scalar .. => "scalar"
  | .sequence .. => "sequence"
  | .mapping .. => "mapping"
  | .endless _ => "sequence"

/-! ### Reading tokens -/

/-- What is left to read, and what was named on the way. -/
structure Reader where
  tokens : List Token
  /-- What stands behind the tokens. -/
  fault : Option Fault
  /-- Where the text ends. -/
  stop : Mark
  /-- Anchors with the places of their nodes, and those nodes that were read. -/
  anchors : Keyed String (Mark × Option Node)
  /-- What the handles of tags stand for. -/
  handles : Keyed String String

abbrev Read := StateT Reader (Except Fault)

def fail {α : Type} (fault : Fault) : Read α := fun _ => .error fault

/-- The next token. -/
def peek : Read Token := fun r =>
  match r.tokens, r.fault with
  | token :: _, _ => .ok (token, r)
  | [], some fault => .error fault
  | [], none => .ok (⟨.streamEnd, r.stop, r.stop⟩, r)

def take : Read Token := do
  let token ← peek
  modify fun r => { r with tokens := r.tokens.drop 1 }
  pure token

def next : Read Token.Kind := do pure (← peek).kind

/-- Takes the next token if it is the given one. -/
def takeIf (kind : Token.Kind) : Read Bool := do
  if (← next) = kind then do
    let _ ← take
    pure true
  else pure false

def emptyScalar (mark : Mark) : Node := .scalar .null "" mark

/-- A report that a collection neither goes on nor ends. -/
def unclosed (context : String) (start : Mark) (problem : String) (token : Token) : Fault :=
  .during .order context start (problem ++ Text.quoted token.kind.label) token.start

/-- What is said about a node before it. -/
structure Properties where
  anchor : Option (String × Mark) := none
  tag : Option (Option String × String × Mark) := none
  /-- Where the first of them starts, and where the last one ends. -/
  start : Option Mark := none
  stop : Mark := ⟨0, 0, 0⟩

def anchorOf (p : Properties) : Read Properties := do
  let token ← peek
  match token.kind with
  | .anchor name => do
    let _ ← take
    pure { p with anchor := some (name, token.start), start := p.start.or token.start,
                  stop := token.stop }
  | _ => pure p

def tagOf (p : Properties) : Read Properties := do
  let token ← peek
  match token.kind with
  | .tag handle suffix => do
    let _ ← take
    pure { p with tag := some (handle, suffix, token.start), start := p.start.or token.start,
                  stop := token.stop }
  | _ => pure p

/-- An anchor and a tag, in any order. -/
def properties : Read Properties := do
  match (← peek).kind with
  | .tag .. => anchorOf (← tagOf {})
  | _ => tagOf (← anchorOf {})

/-- The whole name of a tag. -/
def tagName (start : Mark) (tag : Option (Option String × String × Mark)) :
    Read (Option String) := do
  match tag with
  | none => pure none
  | some (none, suffix, _) => pure (some suffix)
  | some (some handle, suffix, mark) =>
    match Keyed.get? (← get).handles handle with
    | some meaning => pure (some (meaning ++ suffix))
    | none =>
      fail (.during .order "while parsing a node" start
        ("found undefined tag handle " ++ Text.quoted handle) mark)

/-- Names the node that is read next. A name is given once. -/
def declare (start : Mark) (anchor : Option (String × Mark)) : Read Unit := do
  match anchor with
  | none => pure ()
  | some (name, _) =>
    match Keyed.get? (← get).anchors name with
    | some (first, _) =>
      fail (.during .nodes
        ("found duplicate anchor " ++ Text.quoted name ++ "; first occurrence") first
        "second occurrence" start)
    | none => modify fun r => { r with anchors := Keyed.set r.anchors name (start, none) }

/-- Keeps a node under its name. -/
def keep (anchor : Option (String × Mark)) (node : Node) : Read Node := do
  match anchor with
  | none => pure ()
  | some (name, _) =>
    modify fun r => { r with anchors := Keyed.set r.anchors name (node.start, some node) }
  pure node

/-- The node that an alias means. -/
def meant (name : String) (mark : Mark) : Read Node := do
  match Keyed.get? (← get).anchors name with
  | some (_, some node) => pure node
  | some (_, none) => pure (.endless mark)
  | none => fail (.simple .nodes ("found undefined alias " ++ Text.quoted name) mark)

/-- Where a node stands: in a block or a flow collection, and whether a sequence may go on
without being further in. -/
inductive Setting where
  | block
  | blockOrEntries
  | flow
deriving DecidableEq

/-- The kinds of tokens before which an entry is empty. -/
def endsEntry (ends : List Token.Kind) : Read Bool := do pure (ends.contains (← next))

mutual

/-- Reads one node. -/
def node : (fuel : Nat) → Setting → Read Node
  | 0, _ => do fail (.simple .order "the text has no end" (← peek).start)
  | fuel + 1, setting => do
    let token ← peek
    match token.kind with
    | .reference name => do
      let _ ← take
      meant name token.start
    | _ => do
      let p ← properties
      let first ← peek
      let start := p.start.getD first.start
      let tag ← tagName start p.tag
      let collection (read : Read Node) : Read Node := do
        declare start p.anchor
        keep p.anchor (← read)
      match first.kind with
      | .blockEntry =>
        if setting = .blockOrEntries then
          collection (do pure (.sequence (Tag.ofSequence tag) (← looseEntries fuel) start))
        else content fuel p setting start tag first
      | .scalar text plain => do
        declare start p.anchor
        let _ ← take
        keep p.anchor (.scalar (Tag.ofScalar tag plain text) text start)
      | .flowSequenceStart =>
        collection (do
          let _ ← take
          pure (.sequence (Tag.ofSequence tag) (← flowItems fuel first.start true) start))
      | .flowMappingStart =>
        collection (do
          let _ ← take
          pure (.mapping (Tag.ofMapping tag) (← flowEntries fuel first.start true) start))
      | .blockSequenceStart =>
        if setting = .flow then content fuel p setting start tag first
        else
          collection (do
            let _ ← take
            pure (.sequence (Tag.ofSequence tag) (← blockItems fuel first.start) start))
      | .blockMappingStart =>
        if setting = .flow then content fuel p setting start tag first
        else
          collection (do
            let _ ← take
            pure (.mapping (Tag.ofMapping tag) (← blockEntries fuel first.start) start))
      | _ => content fuel p setting start tag first

/-- A node without content: an empty scalar, if something is said about it. -/
def content (fuel : Nat) (p : Properties) (setting : Setting) (start : Mark)
    (tag : Option String) (token : Token) : Read Node := do
  let _ := fuel
  if p.start.isSome then do
    declare start p.anchor
    keep p.anchor (.scalar (Tag.ofScalar tag true "") "" start)
  else
    let kind := if setting = .flow then "flow" else "block"
    fail (unclosed ("while parsing a " ++ kind ++ " node") start
      "expected the node content, but found " token)

/-- A node, or an empty scalar where an entry ends at once. -/
def entry (fuel : Nat) (setting : Setting) (ends : List Token.Kind) (empty : Mark) :
    Read Node := do
  if ← endsEntry ends then pure (emptyScalar empty) else node fuel setting

def blockItems : (fuel : Nat) → Mark → Read (List Node)
  | 0, _ => pure []
  | fuel + 1, start => do
    let token ← peek
    if ← takeIf .blockEntry then do
      let item ← entry fuel .block [.blockEntry, .blockEnd] token.stop
      pure (item :: (← blockItems fuel start))
    else if ← takeIf .blockEnd then pure []
    else
      fail (unclosed "while parsing a block collection" start "expected <block end>, but found "
        token)

/-- The items of a sequence that is no further in than the mapping around it. -/
def looseEntries : (fuel : Nat) → Read (List Node)
  | 0 => pure []
  | fuel + 1 => do
    let token ← peek
    if ← takeIf .blockEntry then do
      let item ← entry fuel .block [.blockEntry, .key, .value, .blockEnd] token.stop
      pure (item :: (← looseEntries fuel))
    else pure []

/-- The value of an entry, empty where none is given. -/
def valueOf (fuel : Nat) (setting : Setting) (ends : List Token.Kind) : Read Node := do
  let token ← peek
  if ← takeIf .value then entry fuel setting ends token.stop
  else pure (emptyScalar token.start)

def blockEntries : (fuel : Nat) → Mark → Read (List (Node × Node))
  | 0, _ => pure []
  | fuel + 1, start => do
    let token ← peek
    let ends : List Token.Kind := [.key, .value, .blockEnd]
    if ← takeIf .key then do
      let key ← entry fuel .blockOrEntries ends token.stop
      let value ← valueOf fuel .blockOrEntries ends
      pure ((key, value) :: (← blockEntries fuel start))
    else if ← takeIf .blockEnd then pure []
    else
      fail (unclosed "while parsing a block mapping" start "expected <block end>, but found " token)

/-- Passes the comma before an entry that is not the first. -/
def nextEntry (context : String) (start : Mark) (first : Bool) (expected : String) :
    Read Unit := do
  if first then pure ()
  else if ← takeIf .flowEntry then pure ()
  else do fail (unclosed context start expected (← peek))

def flowItems : (fuel : Nat) → Mark → (first : Bool) → Read (List Node)
  | 0, _, _ => pure []
  | fuel + 1, start, first => do
    if ← takeIf .flowSequenceEnd then pure []
    else
      nextEntry "while parsing a flow sequence" start first "expected ',' or ']', but got "
      if ← takeIf .flowSequenceEnd then pure []
      else
        let token ← peek
        let ends : List Token.Kind := [.flowEntry, .flowSequenceEnd]
        -- An entry of a mapping without its braces
        let item ←
          if ← takeIf .key then do
            let key ← entry fuel .flow (.value :: ends) token.stop
            let value ← valueOf fuel .flow ends
            pure (.mapping (Tag.ofMapping none) [(key, value)] token.start)
          else node fuel .flow
        pure (item :: (← flowItems fuel start false))

def flowEntries : (fuel : Nat) → Mark → (first : Bool) → Read (List (Node × Node))
  | 0, _, _ => pure []
  | fuel + 1, start, first => do
    if ← takeIf .flowMappingEnd then pure []
    else
      nextEntry "while parsing a flow mapping" start first "expected ',' or '\x7d', but got "
      if ← takeIf .flowMappingEnd then pure []
      else
        let token ← peek
        let ends : List Token.Kind := [.flowEntry, .flowMappingEnd]
        let found ←
          if ← takeIf .key then do
            let key ← entry fuel .flow (.value :: ends) token.stop
            let value ← valueOf fuel .flow ends
            pure (key, value)
          else do
            let key ← node fuel .flow
            pure (key, emptyScalar (← peek).start)
        pure (found :: (← flowEntries fuel start false))

end

/-! ### Documents -/

/-- The handles that need no directive. -/
def usualHandles : Keyed String String := [("!", "!"), ("!!", Tag.standard)]

/-- Reads the directives before a document. -/
def directives : (fuel : Nat) → (versioned : Bool) → Read Unit
  | 0, _ => pure ()
  | fuel + 1, versioned => do
    let token ← peek
    match token.kind with
    | .directive _ version shorthand => do
      let _ ← take
      if let some (major, _) := version then
        if versioned then fail (.simple .order "found duplicate YAML directive" token.start)
        if major ≠ 1 then
          fail (.simple .order "found incompatible YAML document (version 1.* is required)"
            token.start)
      if let some (handle, meaning) := shorthand then
        if Keyed.has (← get).handles handle then
          fail (.simple .order ("duplicate tag handle " ++ Text.quoted handle) token.start)
        modify fun r => { r with handles := Keyed.set r.handles handle meaning }
      directives fuel (versioned || version.isSome)
    | _ => pure ()

/-- Passes the marks that end documents. -/
def passEnds : (fuel : Nat) → Read Unit
  | 0 => pure ()
  | fuel + 1 => do if ← takeIf .documentEnd then passEnds fuel else pure ()

/-- Whether another document starts, and where. Its directives are read, and its mark. -/
def nextDocument? (fuel : Nat) : Read (Option Mark) := do
  passEnds fuel
  let first ← peek
  if first.kind = .streamEnd then pure none
  else
    modify fun r => { r with handles := [] }
    directives fuel false
    modify fun r => { r with handles := Keyed.setAll usualHandles r.handles }
    let token ← peek
    if ← takeIf .documentStart then pure (some first.start)
    else
      fail (.simple .order
        ("expected '<document start>', but found " ++ Text.quoted token.kind.label) token.start)

def isMarked : Token.Kind → Bool
  | .directive .. => true
  | .documentStart => true
  | .documentEnd => true
  | .streamEnd => true
  | _ => false

/-- The node of the first document, none if there is no document. -/
def firstDocument (fuel : Nat) : Read (Option Node) := do
  let first ← peek
  match first.kind with
  | .streamEnd => pure none
  | .directive .. => marked
  | .documentStart => marked
  | _ => some <$> node fuel .block
where
  marked : Read (Option Node) := do
    match ← nextDocument? fuel with
    | none => pure none
    | some _ => do
      let token ← peek
      if isMarked token.kind then pure (some (emptyScalar token.start))
      else some <$> node fuel .block

/-- The one document of a text. -/
def document (fuel : Nat) : Read (Option Node) := do
  match ← firstDocument fuel with
  | none => pure none
  | some root => do
    match ← nextDocument? fuel with
    | none => pure (some root)
    | some mark =>
      fail (.during .nodes "expected a single document in the stream" root.start
        "but found another document" mark)

/-- The node of a text. -/
def ofText (text : String) : Except Fault (Option Node) :=
  let (tokens, fault) := Token.lex text
  let stop := (tokens.getLast?.map Token.stop).getD ⟨0, 0, 0⟩
  let fuel := 4 * tokens.length + 4
  ((document fuel).run ⟨tokens, fault, stop, [], usualHandles⟩).map (·.1)

end Node

end Vitae.Yaml
