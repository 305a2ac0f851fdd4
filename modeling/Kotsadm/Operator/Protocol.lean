import Kotsadm.Lib.GoEncoding

/-!
# Protocol — the messages of socket.io

`Encode` puts a message into the text of a packet, `Decode` reads a packet.  The ack id ends at the
first `[`, and the method stands between the first two quotes.
-/

namespace Kotsadm.Operator.Protocol

open GoString

inductive MessageType
  | «open»
  | close
  | ping
  | pong
  | empty
  | emit
  | ackRequest
  | ackResponse
  /-- any other `int` -/
  | other (n : Int64)
  deriving DecidableEq, Repr

structure Message where
  type : MessageType := .open
  ackId : Int64 := 0
  method : GoString := []
  args : GoString := []
  source : GoString := []
  deriving DecidableEq, Repr

inductive Failure
  | wrongMessageType
  | wrongPacket
  /-- a `strconv.NumError` of `Atoi` -/
  | numError (num : GoString) (err : NumErr)
  /-- a slice expression is out of range -/
  | panic
  deriving DecidableEq, Repr

/-- `text[low:high]` -/
def slice (text : GoString) (low high : Nat) : Except Failure GoString :=
  if low ≤ high ∧ high ≤ text.length then .ok ((text.take high).drop low) else .error .panic

/-! ## Encode -/

def openMessage := ascii "0"
def closeMessage := ascii "1"
def pingMessage := ascii "2"
def pongMessage := ascii "3"
def msg := ascii "4"
def emptyMessage := ascii "40"
def commonMessage := ascii "42"
def ackMessage := ascii "43"

def typeToText : MessageType → Except Failure GoString
  | .open => .ok openMessage
  | .close => .ok closeMessage
  | .ping => .ok pingMessage
  | .pong => .ok pongMessage
  | .empty => .ok emptyMessage
  | .emit | .ackRequest => .ok commonMessage
  | .ackResponse => .ok ackMessage
  | .other _ => .error .wrongMessageType

/-- The JSON of a string never fails. -/
def encode (m : Message) : Except Failure GoString :=
  match typeToText m.type with
  | .error e => .error e
  | .ok result =>
    if m.type = .empty ∨ m.type = .ping ∨ m.type = .pong then .ok result
    else
      let result :=
        if m.type = .ackRequest ∨ m.type = .ackResponse then result ++ itoa m.ackId else result
      if m.type = .open ∨ m.type = .close then .ok (result ++ m.args)
      else if m.type = .ackResponse then .ok (result ++ ascii "[" ++ m.args ++ ascii "]")
      else .ok (result ++ ascii "[" ++ marshal m.method ++ ascii "," ++ m.args ++ ascii "]")

/-! ## Decode -/

def getMessageType (data : GoString) : Except Failure MessageType :=
  if data.length = 0 then .error .wrongMessageType
  else if data.take 1 = openMessage then .ok .open
  else if data.take 1 = closeMessage then .ok .close
  else if data.take 1 = pingMessage then .ok .ping
  else if data.take 1 = pongMessage then .ok .pong
  else if data.take 1 = msg then
    if data.length = 1 then .error .wrongMessageType
    else if data.take 2 = emptyMessage then .ok .empty
    else if data.take 2 = commonMessage then .ok .ackRequest
    else if data.take 2 = ackMessage then .ok .ackResponse
    else .error .wrongMessageType
  else .error .wrongMessageType

/-- The ack id of a packet, and its text from the bracket on. -/
def getAck (text : GoString) : Except Failure (Int64 × GoString) :=
  if text.length < 4 then .error .wrongPacket
  else
    let text := text.drop 2
    match indexByte text 91 with
    | none => .error .wrongPacket
    | some pos =>
      match atoi (text.take pos) with
      | .error err => .error (.numError (text.take pos) err)
      | .ok ack => .ok (ack, text.drop pos)

/-- The variables of the loop in `getMethod` -/
structure Scan where
  start : Nat := 0
  stop : Nat := 0
  rest : Nat := 0
  countQuote : Nat := 0
  deriving DecidableEq, Repr

/-- A quote at `i`: the first starts the method, the second ends it, and there is no third. -/
def Scan.quote (st : Scan) (i : Nat) : Except Failure Scan :=
  match st.countQuote with
  | 0 => .ok { st with start := i + 1, countQuote := 1 }
  | 1 => .ok { st with stop := i, rest := i + 1, countQuote := 2 }
  | _ => .error .wrongPacket

/-- The loop, from offset `i` on; the first comma after the method ends it. -/
def scan : Scan → (i : Nat) → List Rune → Except Failure Scan
  | st, _, [] => .ok st
  | st, i, c :: cs =>
    match (if c = .char '"' then st.quote i else .ok st) with
    | .error e => .error e
    | .ok st =>
      if c = .char ',' then
        if st.countQuote < 2 then scan st (i + c.bytes.length) cs
        else .ok { st with rest := i + 1 }
      else scan st (i + c.bytes.length) cs

def getMethod (text : GoString) : Except Failure (GoString × GoString) :=
  match scan {} 0 (runes text) with
  | .error e => .error e
  | .ok st =>
    if st.stop < st.start ∨ text.length ≤ st.rest then .error .wrongPacket
    else do
      let method ← slice text st.start st.stop
      let restText ← slice text st.rest (text.length - 1)
      return (method, restText)

/-- A packet with the type `42` or `43`. -/
def decodeArgs (m : Message) (data : GoString) : Except Failure Message :=
  match getAck data with
  | .error e =>
    if m.type = .ackResponse then .error e
    else do
      -- without an ack id the packet is not a request for one
      let (method, args) ← getMethod (data.drop 2)
      return { m with type := .emit, method := method, args := args }
  | .ok (ack, rest) =>
    if m.type = .ackResponse then do
      let args ← slice rest 1 (rest.length - 1)
      return { m with ackId := ack, args := args }
    else do
      let (method, args) ← getMethod rest
      return { m with ackId := ack, method := method, args := args }

def decode (data : GoString) : Except Failure Message :=
  match getMessageType data with
  | .error e => .error e
  | .ok type =>
    let m : Message := { type := type, source := data }
    if type = .open then .ok { m with args := data.drop 1 }
    else if type = .close ∨ type = .ping ∨ type = .pong ∨ type = .empty then .ok m
    else decodeArgs m data

end Kotsadm.Operator.Protocol
