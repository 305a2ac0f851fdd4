import Kotsadm.Lib.Throws
import Kotsadm.Operator.Protocol

/-!
# InLoop — the loop that decodes what arrives on the websocket

`inLoop` decodes each packet and handles it, or closes the channel.  A slice that is out of range
panics, and nothing recovers: the operator ends.
-/

namespace Kotsadm.Operator.Protocol

open GoString

/-! ## Every slice expression -/

theorem slice_eq {text : GoString} {low high : Nat} (hlow : low ≤ high)
    (hhigh : high ≤ text.length) : slice text low high = .ok ((text.take high).drop low) :=
  if_pos ⟨hlow, hhigh⟩

/-- `text[low:]` -/
def sliceFrom (text : GoString) (low : Nat) : Except Failure GoString :=
  slice text low text.length

theorem sliceFrom_eq {text : GoString} {low : Nat} (hlow : low ≤ text.length) :
    sliceFrom text low = .ok (text.drop low) := by
  unfold sliceFrom
  rw [slice_eq hlow (Nat.le_refl _), List.take_length]

/-! The functions of `Decode`, where each slice expression may be out of range. -/

namespace Sliced

def getMessageType (data : GoString) : Except Failure MessageType := do
  if data.length = 0 then .error .wrongMessageType
  else
    let first ← slice data 0 1
    if first = openMessage then return .open
    else if first = closeMessage then return .close
    else if first = pingMessage then return .ping
    else if first = pongMessage then return .pong
    else if first = msg then
      if data.length = 1 then .error .wrongMessageType
      else
        let both ← slice data 0 2
        if both = emptyMessage then return .empty
        else if both = commonMessage then return .ackRequest
        else if both = ackMessage then return .ackResponse
        else .error .wrongMessageType
    else .error .wrongMessageType

def getAck (text : GoString) : Except Failure (Int64 × GoString) := do
  if text.length < 4 then .error .wrongPacket
  else
    let text ← sliceFrom text 2
    match indexByte text 91 with
    | none => .error .wrongPacket
    | some pos =>
      let number ← slice text 0 pos
      match atoi number with
      | .error err => .error (.numError number err)
      | .ok ack =>
        let rest ← sliceFrom text pos
        return (ack, rest)

def decodeArgs (m : Message) (data : GoString) : Except Failure Message :=
  match getAck data with
  | .error e =>
    if e = .panic ∨ m.type = .ackResponse then .error e
    else do
      let rest ← sliceFrom data 2
      let (method, args) ← getMethod rest
      return { m with type := .emit, method := method, args := args }
  | .ok (ack, rest) =>
    if m.type = .ackResponse then do
      let args ← slice rest 1 (rest.length - 1)
      return { m with ackId := ack, args := args }
    else do
      let (method, args) ← getMethod rest
      return { m with ackId := ack, method := method, args := args }

def decode (data : GoString) : Except Failure Message := do
  let type ← getMessageType data
  let m : Message := { type := type, source := data }
  if type = .open then
    let args ← sliceFrom data 1
    return { m with args := args }
  else if type = .close ∨ type = .ping ∨ type = .pong ∨ type = .empty then return m
  else decodeArgs m data

theorem getMessageType_eq (data : GoString) :
    Sliced.getMessageType data = Protocol.getMessageType data := by
  unfold Sliced.getMessageType Protocol.getMessageType
  by_cases hempty : data.length = 0
  · rw [if_pos hempty, if_pos hempty]
  · have hfirst : slice data 0 1 = .ok (data.take 1) := slice_eq (by omega) (by omega)
    rw [if_neg hempty, if_neg hempty, hfirst]
    by_cases hone : data.length = 1
    · simp only [hone, if_true]
      rfl
    · have hboth : slice data 0 2 = .ok (data.take 2) := slice_eq (by omega) (by omega)
      simp only [hone, if_false, hboth]
      rfl

theorem getAck_eq (text : GoString) : Sliced.getAck text = Protocol.getAck text := by
  unfold Sliced.getAck Protocol.getAck
  by_cases hshort : text.length < 4
  · rw [if_pos hshort, if_pos hshort]
  · rw [if_neg hshort, if_neg hshort, sliceFrom_eq (by omega)]
    show (match indexByte (text.drop 2) 91 with
      | none => _
      | some pos => _) = _
    dsimp only
    cases hindex : indexByte (text.drop 2) 91 with
    | none => rfl
    | some pos =>
      have hpos : pos < (text.drop 2).length := by
        unfold indexByte at hindex
        exact (List.idxOf?_eq_some_iff.mp hindex).1
      dsimp only
      rw [slice_eq (Nat.zero_le pos) (Nat.le_of_lt hpos), sliceFrom_eq (Nat.le_of_lt hpos),
        List.drop_zero]
      show (match atoi ((text.drop 2).take pos) with
        | .error err => _
        | .ok ack => _) = _
      cases atoi ((text.drop 2).take pos) <;> rfl

theorem getMessageType_spec {data : GoString} {type : MessageType}
    (h : Protocol.getMessageType data = .ok type) :
    0 < data.length ∧
      (type = .open ∨ type = .close ∨ type = .ping ∨ type = .pong ∨ type = .empty ∨
        type = .ackRequest ∧ data.take 2 = commonMessage ∨
        type = .ackResponse ∧ data.take 2 = ackMessage) := by
  unfold Protocol.getMessageType at h
  split at h
  next => cases h
  next hempty =>
    refine ⟨Nat.pos_of_ne_zero hempty, ?_⟩
    repeat' split at h
    all_goals cases h
    all_goals simp_all

theorem not_panic_getAck (text : GoString) : Protocol.getAck text ≠ .error .panic := by
  unfold Protocol.getAck
  split
  · exact nofun
  · dsimp only
    cases indexByte (text.drop 2) 91 with
    | none => exact nofun
    | some pos =>
      dsimp only
      cases atoi ((text.drop 2).take pos) <;> exact nofun

theorem decodeArgs_eq {m : Message} {data : GoString}
    (hlength : m.type ≠ .ackResponse → 2 ≤ data.length) :
    Sliced.decodeArgs m data = Protocol.decodeArgs m data := by
  unfold Sliced.decodeArgs Protocol.decodeArgs
  rw [getAck_eq]
  cases hgetAck : Protocol.getAck data with
  | ok decoded => rfl
  | error e =>
    have hpanic : e ≠ .panic := by
      rintro rfl
      exact not_panic_getAck data hgetAck
    dsimp only
    by_cases hresponse : m.type = .ackResponse
    · rw [if_pos (.inr hresponse), if_pos hresponse]
    · rw [if_neg (not_or.mpr ⟨hpanic, hresponse⟩), if_neg hresponse,
        sliceFrom_eq (hlength hresponse)]
      rfl

/-- Apart from `decodeArgs` of an acknowledgement, and from `getMethod`, no slice is out of range. -/
theorem decode_eq (data : GoString) : Sliced.decode data = Protocol.decode data := by
  unfold Sliced.decode Protocol.decode
  rw [getMessageType_eq]
  cases htype : Protocol.getMessageType data with
  | error e => rfl
  | ok type =>
    obtain ⟨hpos, htypes⟩ := getMessageType_spec htype
    show (if type = .open then _ else _) = _
    dsimp only
    by_cases hopen : type = .open
    · rw [if_pos hopen, if_pos hopen, sliceFrom_eq hpos]
      rfl
    · rw [if_neg hopen, if_neg hopen]
      split
      next => rfl
      next hargs =>
        apply decodeArgs_eq
        intro hresponse
        have hcommon : data.take 2 = commonMessage := by
          rcases htypes with htype | htype | htype | htype | htype | ⟨-, hcommon⟩ | ⟨htype, -⟩
          · exact absurd htype hopen
          · exact absurd (.inl htype) hargs
          · exact absurd (.inr (.inl htype)) hargs
          · exact absurd (.inr (.inr (.inl htype))) hargs
          · exact absurd (.inr (.inr (.inr htype))) hargs
          · exact hcommon
          · exact absurd htype hresponse
        have hlength := congrArg List.length hcommon
        rw [List.length_take] at hlength
        have htwo : commonMessage.length = 2 := rfl
        omega

end Sliced

/-! ## getMethod -/

/-- The method ends before the rest. -/
theorem scan_bounds {st st' : Scan} {i : Nat} {rs : List Rune} (h : scan st i rs = .ok st')
    (hrest : st.stop ≤ st.rest) (hi : st.stop ≤ i) : st'.stop ≤ st'.rest := by
  induction rs generalizing st i with
  | nil =>
    cases h
    exact hrest
  | cons c cs ih =>
    rw [scan] at h
    split at h
    next => cases h
    next st₁ hquote =>
      have hst₁ : st₁.stop ≤ st₁.rest ∧ st₁.stop ≤ i := by
        split at hquote
        next =>
          unfold Scan.quote at hquote
          split at hquote
          next => cases hquote; exact ⟨hrest, hi⟩
          next => cases hquote; exact ⟨Nat.le_succ i, Nat.le_refl i⟩
          next => cases hquote
        next =>
          cases hquote
          exact ⟨hrest, hi⟩
      have hnext : st₁.stop ≤ i + c.bytes.length := Nat.le_trans hst₁.2 (Nat.le_add_right _ _)
      split at h
      next =>
        split at h
        next => exact ih h hst₁.1 hnext
        next =>
          cases h
          exact Nat.le_succ_of_le hst₁.2
      next => exact ih h hst₁.1 hnext

theorem not_panic_scan {st : Scan} {i : Nat} {rs : List Rune} :
    scan st i rs ≠ .error .panic := by
  induction rs generalizing st i with
  | nil => exact nofun
  | cons c cs ih =>
    rw [scan]
    split
    next e hquote =>
      intro hpanic
      cases hpanic
      split at hquote
      next =>
        unfold Scan.quote at hquote
        split at hquote <;> cases hquote
      next => cases hquote
    next =>
      split
      next =>
        split
        next => exact ih
        next => exact nofun
      next => exact ih

theorem not_panic_getMethod (text : GoString) : getMethod text ≠ .error .panic := by
  unfold getMethod
  cases hscan : scan {} 0 (runes text) with
  | error e =>
    intro hpanic
    cases hpanic
    exact not_panic_scan hscan
  | ok st =>
    dsimp only
    split
    next => exact nofun
    next hrange =>
      have hstop := scan_bounds hscan (Nat.le_refl 0) (Nat.le_refl 0)
      have hmethod : slice text st.start st.stop = .ok ((text.take st.stop).drop st.start) :=
        slice_eq (by omega) (by omega)
      have hargs : slice text st.rest (text.length - 1) =
          .ok ((text.take (text.length - 1)).drop st.rest) := slice_eq (by omega) (by omega)
      rw [hmethod, hargs]
      exact nofun

/-! ## getAck -/

theorem mem_of_parseUint {s : GoString} {n m : Nat} (h : parseUint n s = .ok m) {b : UInt8}
    (hb : b ∈ s) : 48 ≤ b ∧ b ≤ 57 := by
  induction s generalizing n with
  | nil => cases hb
  | cons first s ih =>
    rw [parseUint] at h
    split at h
    next hdigit =>
      dsimp only at h
      split at h
      next =>
        rcases List.mem_cons.mp hb with rfl | hb
        · exact hdigit
        · exact ih h hb
      next => cases h
    next => cases h

/-- A number has no bracket. -/
theorem not_mem_of_atoi {number : GoString} {ack : Int64} (h : atoi number = .ok ack) :
    91 ∉ number := by
  intro hmem
  unfold atoi at h
  have hcut : (91 : UInt8) ∈ (cutSign number).2 := by
    cases number with
    | nil => cases hmem
    | cons b rest =>
      rw [cutSign]
      rcases List.mem_cons.mp hmem with rfl | hmem
      · exact List.mem_cons_self
      · split
        next => exact hmem
        next =>
          split
          next => exact hmem
          next => exact List.mem_cons_of_mem b hmem
  dsimp only at h
  split at h
  next => cases h
  next =>
    cases hparse : parseUint 0 (cutSign number).2 with
    | error e =>
      rw [hparse] at h
      cases h
    | ok m => exact absurd (mem_of_parseUint hparse hcut).2 (by decide)

theorem indexByte_eq_some {s : GoString} {b : UInt8} {pos : Nat} (h : indexByte s b = some pos) :
    s = s.take pos ++ b :: s.drop (pos + 1) := by
  obtain ⟨hlt, hget, -⟩ := List.idxOf?_eq_some_iff.mp h
  rw [← hget, ← List.drop_eq_getElem_cons hlt, List.take_append_drop]

/-- What an ack id is read from. -/
theorem getAck_eq_ok {text rest : GoString} {ack : Int64} (h : getAck text = .ok (ack, rest)) :
    ∃ number tail, text.drop 2 = number ++ 91 :: tail ∧ atoi number = .ok ack ∧
      rest = 91 :: tail := by
  unfold getAck at h
  split at h
  next => cases h
  next =>
    dsimp only at h
    cases hindex : indexByte (text.drop 2) 91 with
    | none =>
      rw [hindex] at h
      cases h
    | some pos =>
      rw [hindex] at h
      dsimp only at h
      cases hatoi : atoi ((text.drop 2).take pos) with
      | error err =>
        rw [hatoi] at h
        cases h
      | ok ack' =>
        rw [hatoi] at h
        cases h
        obtain ⟨hlt, hget, -⟩ := List.idxOf?_eq_some_iff.mp hindex
        refine ⟨_, _, indexByte_eq_some hindex, hatoi, ?_⟩
        rw [List.drop_eq_getElem_cons hlt, hget]

theorem getAck_append {type number tail : GoString} {ack : Int64} (htype : type.length = 2)
    (h : atoi number = .ok ack) :
    getAck (type ++ (number ++ 91 :: tail)) = .ok (ack, 91 :: tail) := by
  have hnumber : number ≠ [] := by
    rintro rfl
    cases h
  have hpos := List.length_pos_of_ne_nil hnumber
  have hdrop : (type ++ (number ++ 91 :: tail)).drop 2 = number ++ 91 :: tail := by
    rw [← htype, List.drop_left]
  unfold getAck
  rw [if_neg (by simp only [List.length_append, List.length_cons]; omega)]
  dsimp only
  rw [hdrop, indexByte_append (not_mem_of_atoi h)]
  dsimp only
  rw [List.take_left, h, List.drop_left]

/-! ## Decode -/

/-- An acknowledgement that ends with the bracket. -/
def TruncatedAck (data : GoString) : Prop :=
  ∃ number ack, atoi number = .ok ack ∧ data = ackMessage ++ (number ++ ascii "[")

theorem not_panic_getMessageType (data : GoString) : getMessageType data ≠ .error .panic := by
  unfold getMessageType
  repeat' split
  all_goals exact nofun

theorem bind_getMethod_ne_panic (text : GoString) (f : GoString × GoString → Message) :
    (getMethod text >>= fun decoded => .ok (f decoded)) ≠ .error .panic := by
  have hmethod := not_panic_getMethod text
  cases hdecoded : getMethod text with
  | error e =>
    rw [hdecoded] at hmethod
    exact fun h => hmethod (by cases h; rfl)
  | ok decoded => exact nofun

/-- The text from the bracket on has to have a last byte of its own. -/
theorem slice_eq_panic {b : UInt8} {tail : GoString} :
    slice (b :: tail) 1 ((b :: tail).length - 1) = .error .panic ↔ tail = [] := by
  cases tail with
  | nil => exact iff_of_true rfl rfl
  | cons c tail =>
    have hslice : slice (b :: c :: tail) 1 ((b :: c :: tail).length - 1) =
        .ok (((b :: c :: tail).take ((b :: c :: tail).length - 1)).drop 1) :=
      slice_eq (by simp) (by simp)
    rw [hslice]
    exact iff_of_false nofun nofun

theorem decodeArgs_eq_panic {m : Message} {data : GoString} :
    decodeArgs m data = .error .panic ↔
      m.type = .ackResponse ∧ ∃ ack, getAck data = .ok (ack, [91]) := by
  unfold decodeArgs
  cases hack : getAck data with
  | error e =>
    have hpanic := Sliced.not_panic_getAck data
    rw [hack] at hpanic
    dsimp only
    refine iff_of_false ?_ (fun ⟨_, ack, heq⟩ => by cases heq)
    split
    next => exact fun h => hpanic (by cases h; rfl)
    next => exact bind_getMethod_ne_panic _ _
  | ok decoded =>
    obtain ⟨ack, rest⟩ := decoded
    obtain ⟨number, tail, -, -, rfl⟩ := getAck_eq_ok hack
    dsimp only
    by_cases hresponse : m.type = .ackResponse
    · have hpanic : (do
          let args ← slice (91 :: tail) 1 ((91 :: tail).length - 1)
          return { m with ackId := ack, args := args } : Except Failure Message) =
            .error .panic ↔ slice (91 :: tail) 1 ((91 :: tail).length - 1) = .error .panic := by
        cases slice (91 :: tail) 1 ((91 :: tail).length - 1) with
        | error e => exact ⟨fun h => by cases h; rfl, fun h => by cases h; rfl⟩
        | ok args => exact iff_of_false nofun nofun
      rw [if_pos hresponse, hpanic, slice_eq_panic]
      constructor
      · rintro rfl
        exact ⟨hresponse, ack, rfl⟩
      · rintro ⟨-, ack', heq⟩
        cases heq
        rfl
    · rw [if_neg hresponse]
      exact iff_of_false (bind_getMethod_ne_panic _ _) fun h => hresponse h.1

theorem getAck_eq_bracket {data : GoString} (hdata : data.take 2 = ackMessage) {ack : Int64} :
    getAck data = .ok (ack, [91]) ↔
      ∃ number, atoi number = .ok ack ∧ data = ackMessage ++ (number ++ ascii "[") := by
  constructor
  · intro h
    obtain ⟨number, tail, hdrop, hatoi, hrest⟩ := getAck_eq_ok h
    cases hrest
    refine ⟨number, hatoi, ?_⟩
    rw [← List.take_append_drop 2 data, hdata, hdrop]
    rfl
  · rintro ⟨number, hatoi, rfl⟩
    exact getAck_append rfl hatoi

/-- **A packet that panics.**  `Decode` panics for acknowledgements that are truncated, and for
nothing else. -/
theorem decode_eq_panic {data : GoString} : decode data = .error .panic ↔ TruncatedAck data := by
  unfold decode TruncatedAck
  cases htype : getMessageType data with
  | error e =>
    have hpanic := not_panic_getMessageType data
    rw [htype] at hpanic
    refine iff_of_false (fun h => hpanic (by cases h; rfl)) ?_
    rintro ⟨number, ack, -, rfl⟩
    cases htype
  | ok type =>
    obtain ⟨-, htypes⟩ := Sliced.getMessageType_spec htype
    by_cases hresponse : type = .ackResponse
    · subst hresponse
      have htake : data.take 2 = ackMessage := by simpa using htypes
      dsimp only
      rw [if_neg (by decide), if_neg (by decide), decodeArgs_eq_panic]
      simp only [getAck_eq_bracket htake, true_and]
      exact exists_comm
    · have hother : ¬ ∃ number ack, atoi number = .ok ack ∧
          data = ackMessage ++ (number ++ ascii "[") := by
        rintro ⟨number, ack, -, rfl⟩
        cases htype
        exact hresponse rfl
      dsimp only
      refine iff_of_false ?_ hother
      split
      next => exact nofun
      next =>
        split
        next => exact nofun
        next => exact fun h => hresponse (decodeArgs_eq_panic.mp h).1

/-! ## inLoop -/

/-- What `GetMessage` returns. -/
inductive Received
  | message (pkg : GoString)
  | error
  deriving DecidableEq, Repr

structure Channel (η : Type) where
  header : η
  alive : Bool := true
  -- what was sent to `c.out`
  out : List GoString := []
  -- the loop events that were called
  events : List String := []
  -- the messages of which `processIncomingMessage` has a goroutine
  incoming : List Message := []
  deriving DecidableEq, Repr

inductive Outcome
  | reading
  | returned
  | panicked
  deriving DecidableEq, Repr

section

variable {η : Type}

def Channel.callLoopEvent (c : Channel η) (event : String) : Channel η :=
  { c with events := c.events ++ [event] }

def closeChannel (c : Channel η) : Channel η :=
  if c.alive then
    { c with alive := false, out := [closeMessage] }.callLoopEvent "disconnection"
  else c

-- `json.Unmarshal` into the header, and whether it succeeds
variable (unmarshal : GoString → η → η × Bool)

/-- The switch over the type. -/
def Channel.handle (c : Channel η) (msg : Message) : Except Failure (Channel η) :=
  match msg.type with
  | .open => do
    let text ← sliceFrom msg.source 1
    let (header, ok) := unmarshal text c.header
    let c := { c with header }
    -- a wrong header closes the channel, and the loop goes on
    let c := if ok then c else closeChannel c
    return c.callLoopEvent "connection"
  | .ping => .ok { c with out := c.out ++ [pongMessage] }
  | .pong => .ok c
  | _ => .ok { c with incoming := c.incoming ++ [msg] }

/-- The loop over what it has received so far. -/
def inLoop (c : Channel η) : List Received → Channel η × Outcome
  | [] => (c, .reading)
  | .error :: _ => (closeChannel c, .returned)
  | .message pkg :: later =>
    match Sliced.decode pkg with
    | .error .panic => (c, .panicked)
    | .error _ => (closeChannel c, .returned)
    | .ok msg =>
      match c.handle unmarshal msg with
      | .error _ => (c, .panicked)
      | .ok c => inLoop c later

variable {unmarshal} {c : Channel η}

theorem source_of_decode {data : GoString} {m : Message} (h : decode data = .ok m) :
    m.type = .open → 0 < m.source.length := by
  intro hopen
  unfold decode at h
  cases htype : getMessageType data with
  | error e =>
    rw [htype] at h
    cases h
  | ok type =>
    have hpos := (Sliced.getMessageType_spec htype).1
    rw [htype] at h
    dsimp only at h
    split at h
    next =>
      cases h
      exact hpos
    next hother =>
      split at h
      next =>
        cases h
        exact hpos
      next =>
        -- the other types are those of the arguments
        have hsource : m.source = data := by
          unfold decodeArgs at h
          split at h
          next =>
            split at h
            next => cases h
            next =>
              obtain ⟨decoded, -, h⟩ := Except.bind_eq_ok.mp h
              cases h
              rfl
          next =>
            split at h
            next =>
              obtain ⟨args, -, h⟩ := Except.bind_eq_ok.mp h
              cases h
              rfl
            next =>
              obtain ⟨decoded, -, h⟩ := Except.bind_eq_ok.mp h
              cases h
              rfl
        rw [hsource]
        exact hpos

/-- The handling of a decoded message does not panic. -/
theorem handle_eq_ok {data : GoString} {m : Message} (h : decode data = .ok m) :
    ∃ c', c.handle unmarshal m = .ok c' := by
  unfold Channel.handle
  split
  next hopen =>
    rw [sliceFrom_eq (source_of_decode h hopen)]
    exact ⟨_, rfl⟩
  next => exact ⟨_, rfl⟩
  next => exact ⟨_, rfl⟩
  next => exact ⟨_, rfl⟩

/-- A packet that the loop goes on after. -/
def Decodes (r : Received) : Prop := ∃ pkg msg, r = .message pkg ∧ decode pkg = .ok msg

/-- A truncated acknowledgement arrives while the loop is reading. -/
def ReadsTruncated (received : List Received) : Prop :=
  ∃ before data after, received = before ++ .message data :: after ∧
    (∀ r ∈ before, Decodes r) ∧ TruncatedAck data

theorem not_readsTruncated {first : Received} {later : List Received}
    (h : ¬ ∃ pkg, first = .message pkg ∧ ((∃ msg, decode pkg = .ok msg) ∨ TruncatedAck pkg)) :
    ¬ ReadsTruncated (first :: later) := by
  rintro ⟨before, data, after, heq, hbefore, htruncated⟩
  apply h
  cases before with
  | nil =>
    cases heq
    exact ⟨data, rfl, .inr htruncated⟩
  | cons r before =>
    cases heq
    obtain ⟨pkg, msg, rfl, hdecode⟩ := hbefore _ List.mem_cons_self
    exact ⟨pkg, rfl, .inl ⟨msg, hdecode⟩⟩

theorem readsTruncated_cons {first : Received} {later : List Received} (hfirst : Decodes first) :
    ReadsTruncated (first :: later) ↔ ReadsTruncated later := by
  constructor
  · rintro ⟨before, data, after, heq, hbefore, htruncated⟩
    cases before with
    | nil =>
      cases heq
      obtain ⟨pkg, msg, hpkg, hdecode⟩ := hfirst
      cases hpkg
      rw [decode_eq_panic.mpr htruncated] at hdecode
      cases hdecode
    | cons r before =>
      cases heq
      exact ⟨before, data, after, rfl, fun r hr => hbefore r (List.mem_cons_of_mem _ hr),
        htruncated⟩
  · rintro ⟨before, data, after, rfl, hbefore, htruncated⟩
    exact ⟨first :: before, data, after, rfl, List.forall_mem_cons.mpr ⟨hfirst, hbefore⟩,
      htruncated⟩

theorem inLoop_panics_iff (received : List Received) :
    (inLoop unmarshal c received).2 = .panicked ↔ ReadsTruncated received := by
  induction received generalizing c with
  | nil =>
    refine iff_of_false nofun ?_
    rintro ⟨before, data, after, heq, -⟩
    cases before <;> cases heq
  | cons first later ih =>
    cases first with
    | error =>
      refine iff_of_false nofun (not_readsTruncated ?_)
      rintro ⟨pkg, heq, -⟩
      cases heq
    | message pkg =>
      rw [inLoop, Sliced.decode_eq]
      cases hdecode : decode pkg with
      | ok msg =>
        obtain ⟨c', hhandle⟩ : ∃ c', c.handle unmarshal msg = .ok c' := handle_eq_ok hdecode
        dsimp only
        rw [hhandle, readsTruncated_cons ⟨pkg, msg, rfl, hdecode⟩]
        exact ih
      | error e =>
        by_cases hpanic : e = .panic
        · subst hpanic
          exact iff_of_true rfl ⟨[], pkg, later, rfl, nofun, decode_eq_panic.mp hdecode⟩
        · refine iff_of_false ?_ (not_readsTruncated ?_)
          · cases e <;> first | exact absurd rfl hpanic | exact nofun
          · rintro ⟨pkg', heq, ⟨msg, hok⟩ | htruncated⟩
            · cases heq
              rw [hdecode] at hok
              cases hok
            · cases heq
              rw [decode_eq_panic.mpr htruncated] at hdecode
              cases hdecode
              exact hpanic rfl

end

/-- **No crash.**  `Decode` returns a message or an error for every packet that is not a truncated
acknowledgement, and the loop panics exactly when it reads one. -/
theorem never_panics_iff (data : GoString) :
    (Sliced.decode data ≠ .error .panic ↔ ¬ TruncatedAck data) ∧
    ∀ (η : Type) (unmarshal : GoString → η → η × Bool) (c : Channel η) (received : List Received),
      (inLoop unmarshal c received).2 ≠ .panicked ↔ ¬ ReadsTruncated received := by
  constructor
  · rw [Sliced.decode_eq]
    exact not_congr decode_eq_panic
  · intro η unmarshal c received
    exact not_congr (inLoop_panics_iff received)

/-- The packet `431[`. -/
theorem not_never_panics :
    ¬ ((∀ data, Sliced.decode data ≠ .error .panic) ∧
      ∀ received, (inLoop (fun _ header => (header, true)) ({ header := () } : Channel Unit)
        received).2 ≠ .panicked) := by
  intro ⟨hdecode, _⟩
  exact hdecode (ascii "431[") (by decide)

end Kotsadm.Operator.Protocol
