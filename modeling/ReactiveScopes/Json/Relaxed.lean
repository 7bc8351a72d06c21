import ReactiveScopes.Fault
import ReactiveScopes.Json.Reader
import ReactiveScopes.Text.Blank

/-!
# State text

An initial state is declared as a JSON object. Text that is not JSON gets one second chance: single
quotes become double quotes, bare keys are quoted, and the result is read again. Nothing else is
repaired.
-/
namespace ReactiveScopes.Json

/-- The inside of a single-quoted string whose opening quote has just been read; `none` if it is never
closed. A backslash protects the next character, which may not be a line feed. -/
def singleQuoted? : List Char → Option (List Char)
  | [] => none
  | '\'' :: _ => some []
  | '\\' :: '\n' :: _ => none
  | '\\' :: c :: cs => (singleQuoted? cs).map ('\\' :: c :: ·)
  | '\\' :: [] => none
  | c :: cs => (singleQuoted? cs).map (c :: ·)

def protectQuote (c : Char) : List Char := if c == '"' then ['\\', '"'] else [c]

/-- Single-quoted strings become double-quoted ones; `skip` characters have been dealt with. -/
def requote : (skip : Nat) → List Char → List Char
  | _, [] => []
  | skip + 1, _ :: cs => requote skip cs
  | 0, c :: cs =>
    if c == '\'' then
      match singleQuoted? cs with
      | some body => '"' :: body.flatMap protectQuote ++ '"' :: requote (body.length + 1) cs
      | none => c :: requote 0 cs
    else c :: requote 0 cs

def isKeyStart (c : Char) : Bool := ('a' ≤ c && c ≤ 'z') || ('A' ≤ c && c ≤ 'Z') || c == '_'

def isKeyChar (c : Char) : Bool := isKeyStart c || isAsciiDigit c || c == '-'

/-- A bare key at the head of the text: the blanks before it, the key, and the blanks up to the colon
that must follow. -/
def bareKey? (cs : List Char) : Option (List Char × List Char × List Char) :=
  let before := cs.takeWhile Text.isBlank
  let rest := cs.dropWhile Text.isBlank
  let key := rest.takeWhile isKeyChar
  let rest := rest.dropWhile isKeyChar
  let after := rest.takeWhile Text.isBlank
  if (key.head?.any isKeyStart) && (rest.dropWhile Text.isBlank).head? == some ':' then
    some (before, key, after)
  else none

/-- Keys that follow an opening brace or a comma are quoted. -/
def quoteKeys : (skip : Nat) → List Char → List Char
  | _, [] => []
  | skip + 1, _ :: cs => quoteKeys skip cs
  | 0, c :: cs =>
    if c == '\x7b' || c == ',' then
      match bareKey? cs with
      | some (before, key, after) =>
        c :: before ++ '"' :: key ++ '"' :: after ++ ':' ::
          quoteKeys (before.length + key.length + after.length + 1) cs
      | none => c :: quoteKeys 0 cs
    else c :: quoteKeys 0 cs

def normalize (cs : List Char) : List Char := quoteKeys 0 (requote 0 cs)

/-- A state declaration: text, or bytes in one of the encodings of JSON documents. -/
inductive Source where
  | text (s : String)
  | bytes (b : List UInt8)

namespace Source

/-- The value of a declaration. Bytes that need the second chance are taken as UTF-8. -/
def read? : Source → Option Json
  | text s =>
    match Json.read? s.toList with
    | some v => some v
    | none => Json.read? (normalize s.toList)
  | bytes b =>
    match Json.readBytes? b with
    | some v => some v
    | none => Json.read? (normalize (Text.Utf8.decodeLossy b))

/-- The fields that a declaration gives a state. -/
def stateFields (s : Source) : Except Fault (List (String × Json)) :=
  match s.read? with
  | none => .error .unreadableState
  | some (.obj fields) => .ok fields
  | some v => .error (.stateNotObject v.kindName)

end Source

end ReactiveScopes.Json
