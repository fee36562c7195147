import BufferLedger.Api.Exchange
import BufferLedger.Watch.Rehearsal

/-!
# Rehearsed servers

A server as a rehearsal knows it: the answers that it gives to list requests for one collection,
in order, the last one again and again. Its watches are opened and stay silent. A server that is
out of reach answers nothing and sees no request.
-/

namespace BufferLedger.Api

structure Scope where
  kind : ObjectKind
  space : Option String

structure Server where
  reachable : Bool
  scope : Scope
  lists : List Response

namespace Server

def answers (rs : List Response) (n : Nat) : List Response :=
  rs.take n ++ List.replicate (n - rs.length) (rs.getLast?.getD ⟨404, ""⟩)

variable {α : Type} [ClusterObject α]

/-- As many answers as the first list may take, and never fewer than are given. -/
def script (s : Server) (attempts : Option Nat) : Script α :=
  let rs := answers s.lists (max s.lists.length (attempts.getD 0))
  let result (r : Response) : Except WatchError (Listing α) :=
    (Exchange.list s.scope.kind s.scope.space (if s.reachable then some r else none)).result
  ⟨rs.map result, []⟩

def request? (s : Server) (watches : Bool) : Output α → Option Request
  | .list => Request.list? s.scope.kind s.scope.space
  | .watch version =>
    if watches then Request.watch? s.scope.kind s.scope.space version else none
  | _ => none

def requests (s : Server) (watches : Bool) (r : Rehearsal α) : List Request :=
  if s.reachable then r.record.reverse.filterMap fun (_, o) => s.request? watches o else []

end Server

end BufferLedger.Api
