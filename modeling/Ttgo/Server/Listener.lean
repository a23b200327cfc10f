/-
**What a listener puts into the context of its requests.**

`internal/server/listener.go` and `tlspeek.go`: the listener of HTTP/2 reads the random of the `ClientHello`
and installs `ConnContextFunc`; the server of HTTP/3 is started without it.

* `Context` — the values of a context; `connContext`, `http3Context` — those of the two listeners.
* `NetObj` — the objects of one connection: the TCP connection, the `randomConn` around it and the `tls.Conn` around
  that. They are different keys, and a write goes to the socket as it is or through TLS.
* `connContextFunc` — what `ConnContextFunc` finds in them; `connContextFunc_object` — it is the TCP connection.
-/

import Ttgo.Server.ConnTracker

namespace Ttgo.Server

/-- The values of a request's context; a value that is not there is nil. -/
structure Context where
  random : List UInt8 := []
  rawConn : Option NetConn := none
  session : Bool := false
deriving DecidableEq, Repr

/-- `extractClientRandom`, nil for what is not a `ClientHello`. -/
def extractClientRandom (buf : List UInt8) : List UInt8 :=
  if buf.length < 43 then []
  else if buf.getD 0 0 ≠ 0x16 then []
  else if buf.getD 5 0 ≠ 0x01 then []
  else (buf.drop 11).take 32

/-- `ConnContextFunc`, for a TLS connection of `randomListener` that begins with `buf`. -/
def connContext (conn : NetConn) (buf : List UInt8) : Context :=
  { random := extractClientRandom buf, rawConn := some conn, session := true }

/-- The context of a request to `startHTTP3`. -/
def http3Context : Context := {}

/-! ### The objects of a connection -/

/-- The `net.Conn` objects, each with its identity. -/
inductive NetObj
  | tcp (self : NetConn)
  /-- `*randomConn`, with the bytes that `Accept` has read. -/
  | random (self : NetConn) (inner : NetObj) (buf : List UInt8)
  /-- `*tls.Conn`. -/
  | tls (self : NetConn) (inner : NetObj)
deriving DecidableEq, Repr

inductive Written
  | raw (bytes : List UInt8)
  /-- A record of the TLS layer. -/
  | record (payload : List UInt8)
deriving DecidableEq, Repr

namespace NetObj

def self : NetObj → NetConn
  | .tcp self | .random self _ _ | .tls self _ => self

def socket : NetObj → NetConn
  | .tcp self => self
  | .random _ inner _ | .tls _ inner => inner.socket

/-- `Write`; a `randomConn` has that of the connection in it. -/
def write : NetObj → List UInt8 → NetConn × Written
  | .tcp self, bytes => (self, .raw bytes)
  | .random _ inner _, bytes => inner.write bytes
  | .tls _ inner, bytes => (inner.socket, .record bytes)

/-- The object that `ConnContextFunc` takes for the raw connection. -/
def rawObject : NetObj → Option NetObj
  | .tls _ (.random _ inner _) => some inner
  | .tls _ inner => some inner
  | .tcp _ | .random _ _ _ => none

end NetObj

def connContextFunc (c : NetObj) : Context where
  random :=
    match c with
    | .tls _ (.random _ _ buf) => extractClientRandom buf
    | _ => []
  rawConn := c.rawObject.map NetObj.self
  session := true

/-- A connection that was accepted: its three objects. -/
structure Accepted where
  tcp : NetConn
  random : NetConn
  tls : NetConn
  buf : List UInt8
deriving DecidableEq, Repr

/-- What `tls.NewListener` hands to the server. -/
def Accepted.object (c : Accepted) : NetObj := .tls c.tls (.random c.random (.tcp c.tcp) c.buf)

theorem connContextFunc_object (c : Accepted) : connContextFunc c.object = connContext c.tcp c.buf := rfl

end Ttgo.Server
