import IscsiTarget.Model.NbdBackend
import IscsiTarget.Model.Text

/-!
# The NBD backend, byte by byte

`Model.NbdBackend` has `invoke_nbd` as threads that share a connection see it, with socket calls
that work or fail as a whole. Here it is once more for one thread, down to the bytes: `READ` and
`WRITE` move as much as the system calls below them do, and a connection can be lost behind any
byte in either direction. The client notices that when a call fails, which is not at once: `write`
may take bytes that go nowhere. `connect` is tried until there is a connection, also behind names
that are not resolved, addresses that refuse, and greetings that are cut or not those of an NBD
server.

What is outside of the program is `NbdEnv`: what each attempt to connect meets, how much each
system call moves, and what the server answers.
-/

namespace IscsiTarget

/-! ### The server -/

/-- A request that the server has answered: what it has received, the error it
has replied, and whether it clears a range that is trimmed. -/
structure NbdAnswer where
  request : NbdRequest
  payload : Bytes
  error : UInt32
  cleared : Bool
  deriving DecidableEq, Repr

/-- What the server stores when it has answered a request. A request that it
answers with an error is not executed. -/
def NbdAnswer.execute (a : NbdAnswer) (contents : Medium UInt8) : Medium UInt8 :=
  if a.error ≠ 0 then contents
  else if a.request.type = nbdCmdWrite then contents.store a.request.offset a.payload
  else if a.request.type = nbdCmdTrim ∧ a.cleared then
    contents.clear a.request.offset a.request.length
  else contents

/-- The server: what it stores, and what it has answered so far. -/
structure NbdServer where
  contents : Medium UInt8
  answers : List NbdAnswer := []

/-- A connection to the server, with what is on its way in either direction, and
with what will still get through before it is lost. -/
structure NbdSocket where
  /-- What the server has received of a request that is not complete. -/
  received : Bytes := []
  /-- What the server has sent, and nobody has read. -/
  replies : Bytes
  /-- How many bytes reach the server before the connection is lost; `none` when
  it is not. -/
  upLeft : Option ℕ
  /-- How many bytes `write` takes behind those, which go nowhere. -/
  unsent : ℕ
  /-- How many bytes reach the client before the connection is lost. -/
  downLeft : Option ℕ
  deriving DecidableEq, Repr

/-- What reaches the client of what the server has sent. -/
def NbdSocket.arriving (socket : NbdSocket) : Bytes :=
  match socket.downLeft with
  | none => socket.replies
  | some left => socket.replies.take left

/-- What an address returned by `getaddrinfo` leads to. The greeting of whatever
listens there is `hello`. -/
inductive NbdAddress
  | noSocket
  | refused
  | accepted (hello : Vector UInt8 152) (upLeft : Option ℕ) (unsent : ℕ) (downLeft : Option ℕ)
  deriving DecidableEq, Repr

/-- What is outside of the program: how attempts to connect end, how much a call
moves, and what the server answers. -/
structure NbdEnv where
  /-- The addresses that an attempt to connect is given; `none` when the name is
  not resolved. -/
  attempts : ℕ → Option (List NbdAddress)
  /-- A system call moves at most one byte more than this. -/
  chunk : ℕ → ℕ
  /-- The error that the server answers its `n`-th request with, and whether a
  trim clears. -/
  answer : ℕ → UInt32 × Bool

/-- The program and the server. The connection may be gone, and the server goes
on with what it has. -/
structure NbdWorld where
  server : NbdServer
  /-- The connection behind `fd`, unless `fd` is -1. -/
  fd : Option NbdSocket := none
  /-- `dev_size`. -/
  devSize : ℕ := 0
  /-- The number of the next attempt to connect. -/
  attempt : ℕ := 0
  /-- The number of the next system call. -/
  call : ℕ := 0

variable (env : NbdEnv)

/-- The server answers a request. What it says is up to the environment, and
what it has done follows from it. -/
def NbdServer.answered (s : NbdServer) (r : NbdRequest) (payload : Bytes) : NbdServer :=
  let a : NbdAnswer :=
    { request := r
      payload := payload
      error := (env.answer s.answers.length).1
      cleared := (env.answer s.answers.length).2 }
  { contents := a.execute s.contents, answers := s.answers ++ [a] }

/-- The server looks at what it has received, and answers a request that is
complete. It may be in the middle of one when the connection is lost. -/
def NbdServer.serve (s : NbdServer) (socket : NbdSocket) : NbdServer × NbdSocket :=
  match NbdRequest.decode (socket.received.take 28) with
  | none => (s, socket)
  | some r =>
    if socket.received.length < 28 + r.payloadLength then (s, socket)
    else
      let payload := (socket.received.drop 28).take r.payloadLength
      let s' := s.answered env r payload
      (s',
        { socket with
          received := socket.received.drop (28 + r.payloadLength)
          replies := socket.replies ++ r.reply (env.answer s.answers.length).1 s'.contents })

/-- `nbd_request`. -/
def nbdRequest (command : UInt32) (offset : UInt64) (nBytes : UInt32) : NbdRequest :=
  { type := command.toNat, offset := offset.toNat, length := nBytes.toNat }

namespace NbdWorld

/-! ### System calls -/

/-- The number of bytes the next system call moves, when it is asked for `n`. -/
def moved (w : NbdWorld) (n : ℕ) : ℕ := min n (env.chunk w.call + 1)

/-- Bytes reach the server. -/
def deliver (w : NbdWorld) (socket : NbdSocket) (upLeft : Option ℕ) (bytes : Bytes) : NbdWorld :=
  let res := w.server.serve env
    { socket with received := socket.received ++ bytes, upLeft := upLeft }
  { w with server := res.1, fd := some res.2 }

/-- `write` on `fd`: the number of bytes it takes, or `none` when it fails.
Bytes that are taken need not get to the server. -/
def write (w : NbdWorld) (bytes : Bytes) : Option ℕ × NbdWorld :=
  let n := w.moved env bytes.length
  let w' := { w with call := w.call + 1 }
  match w.fd with
  | none => (none, w')
  | some socket =>
    match socket.upLeft with
    | none => (some n, w'.deliver env socket none (bytes.take n))
    | some 0 =>
      -- the connection is lost, but the client need not know it
      if socket.unsent = 0 then (none, w')
      else
        let k := min n socket.unsent
        (some k, { w' with fd := some { socket with unsent := socket.unsent - k } })
    | some (left + 1) =>
      let k := min n (left + 1)
      (some k, w'.deliver env socket (some (left + 1 - k)) (bytes.take k))

/-- `read` on `fd`: what it returns, or `none` when it fails or the connection
has ended. It may return less than it was asked for. -/
def read (w : NbdWorld) (len : ℕ) : Option Bytes × NbdWorld :=
  let n := w.moved env len
  let w' := { w with call := w.call + 1 }
  match w.fd with
  | none => (none, w')
  | some socket =>
    if socket.arriving = [] then (none, w')
    else
      let got := socket.arriving.take n
      (some got, { w' with
        fd := some { socket with
          replies := socket.replies.drop got.length
          downLeft := socket.downLeft.map (· - got.length) } })

/-- `close(fd)`. -/
def close (w : NbdWorld) : NbdWorld := { w with fd := none }

/-! ### `READ` and `WRITE` -/

/-- The loop of `WRITE`. Every turn takes a byte at least, so that as many turns
as there are bytes are enough. -/
def writeLoop : ℕ → Bytes → NbdWorld → Bool × NbdWorld
  | 0, _, w => (true, w)
  | turns + 1, bytes, w =>
    if bytes = [] then (true, w)
    else
      match w.write env bytes with
      | (none, w') => (false, w')
      | (some rc, w') => writeLoop turns (bytes.drop rc) w'

/-- `WRITE`: whether it writes everything. -/
def WRITE (bytes : Bytes) (w : NbdWorld) : Bool × NbdWorld := w.writeLoop env bytes.length bytes

/-- The loop of `READ`; `got` is what has been read so far. Only a `read` that
fails ends it early. -/
def readLoop : ℕ → ℕ → Bytes → NbdWorld → Bool × Bytes × NbdWorld
  | 0, _, got, w => (true, got, w)
  | turns + 1, len, got, w =>
    if len = 0 then (true, got, w)
    else
      match w.read env len with
      | (none, w') => (false, got, w')
      | (some bytes, w') => readLoop turns (len - bytes.length) (got ++ bytes) w'

/-- `READ`: whether it reads everything, and what it has put into the buffer. -/
def READ (len : ℕ) (w : NbdWorld) : Bool × Bytes × NbdWorld := w.readLoop env len len []

/-! ### `connect` -/

/-- The loop over the addresses. The first one that takes the connection is the
one it is made with. -/
def tryAddresses : List NbdAddress → Option NbdSocket
  | [] => none
  | .noSocket :: rest => tryAddresses rest
  | .refused :: rest => tryAddresses rest
  | .accepted hello upLeft unsent downLeft :: _ =>
    some { replies := hello.toList, upLeft := upLeft, unsent := unsent, downLeft := downLeft }

/-- The greeting is read and looked at. When it is not what it should be the
connection is closed again, but `dev_size` has been set. -/
def greet (w : NbdWorld) : NbdWorld :=
  match w.READ env 152 with
  | (ok, got, w') =>
    let nbdHello := poke 0 got (zeros 152)
    let w' := { w' with devSize := beNat ((nbdHello.drop 16).take 8) }
    if ok = true ∧ nbdHello.take 8 = ascii "NBDMAGIC" then w' else w'.close

/-- A turn of the loop of `connect`: the name is resolved, the addresses are
tried, and the greeting is read. -/
def connectTurn (w : NbdWorld) : NbdWorld :=
  let w' := { w with attempt := w.attempt + 1 }
  match env.attempts w.attempt with
  | none => w'
  | some addresses =>
    match tryAddresses addresses with
    | none => w'
    | some socket => { w' with fd := some socket }.greet env

/-- The loop of `connect`, which may not end. -/
def connectLoop (retry : Bool) : ℕ → NbdWorld → Option NbdWorld
  | 0, _ => none
  | turns + 1, w =>
    let w' := w.connectTurn env
    if w'.fd = none ∧ retry = true then connectLoop retry turns w' else some w'

/-- `connect`. -/
def connect (retry : Bool) (turns : ℕ) (w : NbdWorld) : Option (Bool × NbdWorld) :=
  if w.fd ≠ none then some (true, w)
  else (w.connectLoop env retry turns).map fun w' => (decide (w'.fd ≠ none), w')

/-! ### `invoke_nbd` -/

/-- The body of the loop of `invoke_nbd` behind `connect`: what it returns, or
`none` when it goes on to the condition of the loop. -/
def invokeBody (r : NbdRequest) (data : Bytes) (w : NbdWorld) : Option Bool × Bytes × NbdWorld :=
  match w.WRITE env r.encode with
  | (false, w) => (none, data, w.close)
  | (true, w) =>
    match if r.type = nbdCmdWrite then w.WRITE env (data.take r.length) else (true, w) with
    | (false, w) => (none, data, w.close)
    | (true, w) =>
      match w.READ env 16 with
      | (false, _, w) => (none, data, w.close)
      | (true, nbdReply, w) =>
        if beNat (nbdReply.take 4) ≠ nbdReplyMagic then (none, data, w.close)
        else if beNat ((nbdReply.drop 4).take 4) ≠ 0 then (some false, data, w)
        else if r.type = nbdCmdRead then
          match w.READ env r.length with
          | (false, got, w) => (none, poke 0 got data, w.close)
          | (true, got, w) => (none, poke 0 got data, w)
        else (none, data, w)

/-- The loop of `invoke_nbd`, which may not end. A turn that loses the
connection is followed by another, which begins with connecting again. -/
def invokeLoop (r : NbdRequest) : ℕ → Bytes → NbdWorld → Option (Bool × Bytes × NbdWorld)
  | 0, _, _ => none
  | turns + 1, data, w =>
    match w.connect env true turns with
    | none => none
    | some (connected, w) =>
      match if connected then w.invokeBody env r data else (none, data, w) with
      | (some rc, data, w) => some (rc, data, w)
      | (none, data, w) =>
        if w.fd = none then invokeLoop r turns data w else some (decide (w.fd ≠ none), data, w)

/-- `invoke_nbd`: what it returns, the buffer behind `data`, and what is left
behind; `none` when it has not returned after so many turns. -/
def invokeNbd (turns : ℕ) (command : UInt32) (offset : UInt64) (nBytes : UInt32) (data : Bytes)
    (w : NbdWorld) : Option (Bool × Bytes × NbdWorld) :=
  w.invokeLoop env (nbdRequest command offset nBytes) turns data

end NbdWorld

end IscsiTarget
