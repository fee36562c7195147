import BufferLedger.Api.Status
import BufferLedger.Watch.Collection

/-!
# Answers of the server

What the body of an answer means. A list is one document. A watch is one document a line; a line
that breaks off is passed over, as the stream may end anywhere.
-/

namespace BufferLedger.Api

open Json

structure Response where
  status : Nat
  body : String

namespace Response

def failed (r : Response) : Bool :=
  400 ≤ r.status && r.status < 600

def statusObject (r : Response) : Status :=
  match decodeText Status.decode r.body with
  | .ok s => s
  | .error _ => ⟨"", Text.quoted r.body, "Failed to parse error data", r.status⟩

end Response

/-! ## Lists -/

section Lists

variable {α : Type} [ClusterObject α]

def listVersion : Json → Decoded Empty (Option String) :=
  asObject false
    [.optional "continue" asString fun _ v => v,
     .optional "remainingItemCount" asInteger fun _ v => v,
     .optional "resourceVersion" asString fun x _ => x,
     .optional "selfLink" asString fun _ v => v] none

def decodeItems : List Json → Decoded Empty (List α)
  | [] => .ok []
  | j :: rest => do
    let x ← ClusterObject.decode j
    return x :: (← decodeItems rest)

def asItems : Json → Decoded Empty (List α)
  | .null => .ok []
  | .array items cut => do
    let xs ← decodeItems items
    liftFault (readEnd cut)
    return xs
  | j => .error (otherForm j)

def decodeListing : Json → Decoded Empty (Listing α) :=
  asObject true
    [.mandatory "metadata" listVersion fun x l => { l with version := x },
     .mandatory "items" asItems fun x l => { l with items := x }] ⟨none, []⟩

def illegibleAnswer : String := "Error deserializing response"

/-- The meaning of the answer to a list request; there is none if the server was not reached. -/
def listAnswer : Option Response → Except WatchError (Listing α)
  | none => .error (.listFailed "the server was not reached")
  | some r =>
    if r.failed then
      .error (r.statusObject.toError (.listFailed r.statusObject.report))
    else match decodeText decodeListing r.body with
      | .ok l => .ok l
      | .error _ => .error (.listFailed illegibleAnswer)

end Lists

/-! ## Watches -/

inductive LineKind
  | added
  | modified
  | deleted
  | bookmark
  | error
  deriving DecidableEq

namespace LineKind

def ofText? : String → Option LineKind
  | "ADDED" => some .added
  | "MODIFIED" => some .modified
  | "DELETED" => some .deleted
  | "BOOKMARK" => some .bookmark
  | "ERROR" => some .error
  | _ => none

def ofText (name : String) : Decoded Empty LineKind :=
  match ofText? name with
  | some kind => .ok kind
  | none => .error .mismatch

end LineKind

def asNull : Json → Decoded Empty Unit
  | .null => .ok ()
  | j => .error (otherForm j)

def afterOnlyField (others : List (Option String × Json)) (cut : Option Flaw) :
    Decoded Empty Unit :=
  match others, cut with
  | [], none => .ok ()
  | [], some .ended => .error (.fault .ended)
  | _, _ => .error (.fault .malformed)

def asKind : Json → Decoded Empty LineKind
  | .string s => LineKind.ofText s
  | .object ((some name, j) :: others) cut => do
    let kind ← LineKind.ofText name
    asNull j
    afterOnlyField others cut
    return kind
  | .object [] (some f) => .error (.fault f.tag)
  | .flaw f => .error (.fault f.tag)
  | _ => .error (.fault .malformed)

def bookmarkVersion : Json → Decoded Empty String :=
  asRecord
    [.mandatory "resourceVersion" asString fun x _ => x,
     ⟨"annotations", false, fun j s => do
        let _ ← asTexts j
        return s⟩] ""

def readBookmark : List (Option String × Json) → Option String → List (Option String × Json) →
    Decoded Empty (Option String × List (Option String × Json))
  | [], version, others => .ok (version, others)
  | (none, _) :: _, _, _ => .error (.fault .malformed)
  | (some "metadata", j) :: rest, none, others => do
    readBookmark rest (some (← bookmarkVersion j)) others
  | (some "metadata", _) :: _, some _, _ => .error .mismatch
  | (some name, j) :: rest, version, others => do
    liftFault (complete j)
    readBookmark rest version (others ++ [(some name, j)])

def decodeBookmark : Json → Decoded Empty String
  | .object entries cut => do
    let (version, others) ← readBookmark entries none []
    liftFault (readEnd cut)
    match version with
    | none => .error .mismatch
    | some version =>
      asObject true
        [.mandatory "apiVersion" asString fun _ s => s,
         .mandatory "kind" asString fun _ s => s] version (.object others none)
  | j => .error (otherForm j)

section Watches

variable {α : Type} [ClusterObject α]

abbrev Line (α : Type) := Except Status (WatchEvent α)

def decodeContent (kind : LineKind) (j : Json) : Decoded Empty (Line α) :=
  match kind with
  | .added => return .ok (.added (← ClusterObject.decode j))
  | .modified => return .ok (.modified (← ClusterObject.decode j))
  | .deleted => return .ok (.deleted (← ClusterObject.decode j))
  | .bookmark => return .ok (.bookmark (← decodeBookmark j))
  | .error => return .error (← Status.decode j)

/-- What has been read of a line. An object whose kind is not known yet is kept. -/
inductive LinePart (α : Type)
  | nothing
  | kind (kind : LineKind)
  | object (content : Json)
  | whole (line : Line α)

def readLine : List (Option String × Json) → LinePart α → Decoded Empty (LinePart α)
  | [], part => .ok part
  | (none, _) :: _, _ => .error (.fault .malformed)
  | (some "type", j) :: rest, part =>
    match part with
    | .nothing => do readLine rest (.kind (← asKind j))
    | .object content => do readLine rest (.whole (← decodeContent (← asKind j) content))
    | _ => .error .mismatch
  | (some "object", j) :: rest, part =>
    match part with
    | .nothing => do
      liftFault (complete j)
      readLine rest (.object j)
    | .kind kind => do readLine rest (.whole (← decodeContent kind j))
    | _ => .error .mismatch
  | (some _, j) :: rest, part => do
    liftFault (skip j)
    readLine rest part

def decodeLine : Json → Decoded Empty (Line α)
  | .object entries cut => do
    let part ← readLine entries .nothing
    liftFault (readEnd cut)
    match part with
    | .whole line => return line
    | _ => .error .mismatch
  | .array items cut => do
    match items with
    | kind :: content :: rest =>
      let line ← decodeContent (← asKind kind) content
      if rest.isEmpty then do
        liftFault (readEnd cut)
        return line
      else .error .mismatch
    | [kind] => do
      let _ ← asKind kind
      liftFault (readEnd cut)
      .error .mismatch
    | [] => do
      liftFault (readEnd cut)
      .error .mismatch
  | j => .error (otherForm j)

/-- What the stream gives for a line; nothing if it breaks off. A line that is no event may be
a bare status object. -/
def lineItem? (line : String) : Option (Except WatchError (WatchEvent α)) :=
  match decodeText decodeLine line with
  | .ok (.ok e) => some (.ok e)
  | .ok (.error s) => some (.error (s.toError (.watchFailed s.text)))
  | .error (.fault .ended) => none
  | .error _ =>
    match decodeText Status.decode line with
    | .ok s => some (.error (s.toError (.watchFailed s.report)))
    | .error _ => some (.error (.watchFailed illegibleAnswer))

def chomp (line : String) : String :=
  match line.toList.reverse with
  | '\r' :: rest => String.ofList rest.reverse
  | _ => line

def watchItems (body : String) : List (Except WatchError (WatchEvent α)) :=
  ((body.splitOn "\n").map chomp).filterMap lineItem?

def watchAnswer : Option Response → Except WatchError (List (Except WatchError (WatchEvent α)))
  | none => .error (.watchFailed "the server was not reached")
  | some r => .ok (watchItems r.body)

end Watches

end BufferLedger.Api
