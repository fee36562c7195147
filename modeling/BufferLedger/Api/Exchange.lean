import BufferLedger.Api.Answer
import BufferLedger.Api.Collection

/-!
# Requests and their answers

A request that cannot be written as an address is never made, and fails like one to which there
is no answer.
-/

namespace BufferLedger.Api

structure Exchange (α : Type) where
  request : Option Request
  result : Except WatchError α

namespace Exchange

variable {α : Type} [ClusterObject α]

def list (k : ObjectKind) (space : Option String) (response : Option Response) :
    Exchange (Listing α) :=
  let request := Request.list? k space
  ⟨request, listAnswer (request.bind fun _ => response)⟩

def watch (k : ObjectKind) (space : Option String) (version : String)
    (response : Option Response) : Exchange (List (Except WatchError (WatchEvent α))) :=
  let request := Request.watch? k space version
  ⟨request, watchAnswer (request.bind fun _ => response)⟩

end Exchange

end BufferLedger.Api
