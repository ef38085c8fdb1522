import Vitae.Yaml.Scalar

/-! Directives, anchors and tags: what a text says about a document or a node, beside what
is in it. -/

namespace Vitae.Yaml.Property

open Scalar (found)

def fault (context : String) (start : Mark) (problem : String) (c : Cursor) : Fault :=
  .during .tokens context start problem c.mark

/-! ### Names -/

/-- The name of an anchor or an alias, behind its mark. -/
def name (context : String) (c : Cursor) : Except Fault (String × Cursor) :=
  let start := c.mark
  let c := c.next
  let word := c.run isWordChar
  let behind := c.advance word.length
  let expectation := "expected alphabetic or numeric character"
  if word.isEmpty then .error (fault context start (found expectation c.head) c)
  else if isBlankOrEnd behind.head || "?:,]\x7d%@\x60".toList.contains behind.head then
    .ok (String.ofList word, behind)
  else .error (fault context start (found expectation behind.head) behind)

/-! ### Tags -/

def isUriChar (c : Char) : Bool :=
  c.isAlphanum || "-;/?:@&=+$,_.!~*'()[]".toList.contains c

/-- Bytes that are written as two digits each behind a percent sign. -/
def escapedBytes (context : String) (start : Mark) :
    (fuel : Nat) → ByteArray → Cursor → Except Fault (ByteArray × Cursor)
  | 0, bytes, c => .ok (bytes, c)
  | fuel + 1, bytes, c =>
    if c.head != '%' then .ok (bytes, c)
    else
      let c := c.next
      let expectation := "expected URI escape sequence of 2 hexadecimal numbers"
      match hexValue? (c.peek 0), hexValue? (c.peek 1) with
      | some high, some low =>
        escapedBytes context start fuel (bytes.push (UInt8.ofNat (16 * high + low))) (c.advance 2)
      | none, _ => .error (fault context start (found expectation (c.peek 0)) c)
      | _, none => .error (fault context start (found expectation (c.peek 1)) c)

def uriTail (context : String) (start : Mark) :
    (fuel : Nat) → String → Cursor → Except Fault (String × Cursor)
  | 0, read, c => .ok (read, c)
  | fuel + 1, read, c =>
    if c.head == '%' then do
      let (bytes, behind) ← escapedBytes context start (c.size + 1) .empty c
      match String.fromUTF8? bytes with
      | some text => uriTail context start fuel (read ++ text) behind
      | none => .error (fault context start "expected bytes of a character" c)
    else if isUriChar c.head then uriTail context start fuel (read.push c.head) c.next
    else .ok (read, c)

/-- The name of a tag, or the rest of it. -/
def uri (what : String) (start : Mark) (c : Cursor) : Except Fault (String × Cursor) := do
  let (read, behind) ← uriTail ("while scanning a " ++ what) start (c.size + 1) "" c
  if read = "" then
    .error (fault ("while parsing a " ++ what) start (found "expected URI" behind.head) behind)
  else .ok (read, behind)

/-- A handle: an exclamation mark alone, or a word between two. -/
def handle (what : String) (start : Mark) (c : Cursor) : Except Fault (String × Cursor) :=
  let context := "while scanning a " ++ what
  if c.head != '!' then .error (fault context start (found "expected '!'" c.head) c)
  else if c.peek 1 == ' ' then .ok ("!", c.next)
  else
    let word := c.next.run isWordChar
    let behind := c.next.advance word.length
    if behind.head == '!' then .ok (String.ofList ('!' :: word ++ ['!']), behind.next)
    else .error (fault context start (found "expected '!'" behind.head) behind)

/-- A tag: a whole name in angle brackets, the mark alone, or a handle and the rest. -/
def tag (c : Cursor) : Except Fault ((Option String × String) × Cursor) := do
  let start := c.mark
  let (read, c) ←
    if c.peek 1 == '<' then do
      let (suffix, c) ← uri "tag" start (c.advance 2)
      if c.head == '>' then .ok ((none, suffix), c.next)
      else
        .error (fault "while parsing a tag" start (found "expected '>'" c.head) c)
    else if isBlankOrEnd (c.peek 1) then .ok ((none, "!"), c.next)
    else
      let ahead := c.next.run fun x => !isSpaceOrEnd x
      if ahead.contains '!' then do
        let (handle, c) ← handle "tag" start c
        let (suffix, c) ← uri "tag" start c
        .ok ((some handle, suffix), c)
      else do
        let (suffix, c) ← uri "tag" start c.next
        .ok ((some "!", suffix), c)
  if isSpaceOrEnd c.head then .ok (read, c)
  else .error (fault "while scanning a tag" start (found "expected ' '" c.head) c)

/-! ### Directives -/

def directiveContext : String := "while scanning a directive"

def directiveName (start : Mark) (c : Cursor) : Except Fault (String × Cursor) :=
  let word := c.run isWordChar
  let behind := c.advance word.length
  let expectation := "expected alphabetic or numeric character"
  if word.isEmpty then .error (fault directiveContext start (found expectation c.head) c)
  else if isSpaceOrEnd behind.head then .ok (String.ofList word, behind)
  else .error (fault directiveContext start (found expectation behind.head) behind)

def number (start : Mark) (c : Cursor) : Except Fault (Nat × Cursor) :=
  let digits := c.run isDecimal
  if digits.isEmpty then .error (fault directiveContext start (found "expected a digit" c.head) c)
  else
    .ok (digits.foldl (fun n d => 10 * n + (d.toNat - '0'.toNat)) 0, c.advance digits.length)

def version (start : Mark) (c : Cursor) : Except Fault ((Nat × Nat) × Cursor) := do
  let (major, c) ← number start (c.skip (· == ' '))
  if c.head != '.' then
    .error (fault directiveContext start (found "expected a digit or '.'" c.head) c)
  else
    let (minor, c) ← number start c.next
    if isSpaceOrEnd c.head then .ok ((major, minor), c)
    else .error (fault directiveContext start (found "expected a digit or ' '" c.head) c)

/-- A handle and the start of the names that it stands for. -/
def shorthand (start : Mark) (c : Cursor) : Except Fault ((String × String) × Cursor) := do
  let (handle, c) ← handle "directive" start (c.skip (· == ' '))
  if c.head != ' ' then
    .error (fault directiveContext start (found "expected ' '" c.head) c)
  else
    let (meaning, c) ← uri "directive" start (c.skip (· == ' '))
    if isSpaceOrEnd c.head then .ok ((handle, meaning), c)
    else .error (fault directiveContext start (found "expected ' '" c.head) c)

/-- A directive as read. -/
structure Directive where
  name : String
  version : Option (Nat × Nat) := none
  shorthand : Option (String × String) := none
  /-- Where it ends. -/
  stop : Mark

/-- A directive and the place in the next line. -/
def directive (c : Cursor) : Except Fault (Directive × Cursor) := do
  let start := c.mark
  let (name, c) ← directiveName start c.next
  let (d, c) ←
    match name with
    | "YAML" => do
      let (found, c) ← version start c
      .ok (⟨name, some found, none, c.mark⟩, c)
    | "TAG" => do
      let (found, c) ← shorthand start c
      .ok (⟨name, none, some found, c.mark⟩, c)
    | _ => .ok (⟨name, none, none, c.mark⟩, c.skip fun x => !isLineEnd x)
  .ok (d, ← Scalar.restOfLine directiveContext start c)

end Vitae.Yaml.Property
