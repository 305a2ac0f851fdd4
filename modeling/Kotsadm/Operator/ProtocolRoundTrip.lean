import Kotsadm.Operator.Protocol

/-!
# ProtocolRoundTrip — what arrives of a message

A message comes back from its packet when the packet has room for it and the JSON of its method is
the method between quotes.  `Decode` takes the text between the first two quotes of the packet for
the method and never undoes an escape.
-/

namespace Kotsadm.Operator.Protocol

open GoString

/-! ## Slices -/

theorem slice_append (a b c : GoString) :
    slice (a ++ (b ++ c)) a.length (a.length + b.length) = .ok b := by
  unfold slice
  rw [if_pos (by simp only [List.length_append]; omega), List.take_length_add_append,
    List.take_left, List.drop_left]

/-! ## The loop in getMethod -/

/-- Inside the method, and before it, only quotes matter. -/
theorem scan_chars {st : Scan} (hcount : st.countQuote < 2) {cs : List Char} (hcs : '"' ∉ cs)
    (i : Nat) (rs : List Rune) :
    scan st i (cs.map .char ++ rs) = scan st (i + (ofChars cs).length) rs := by
  induction cs generalizing i with
  | nil => rfl
  | cons c cs ih =>
    have hquote : Rune.char c ≠ .char '"' := by
      intro heq
      exact hcs (Rune.char.inj heq ▸ List.mem_cons_self)
    have hrest := ih (fun hmem => hcs (List.mem_cons_of_mem c hmem))
      (i + (Rune.char c).bytes.length)
    have hlength : (ofChars (c :: cs)).length =
        (Rune.char c).bytes.length + (ofChars cs).length := List.length_append
    rw [List.map_cons, List.cons_append, scan, if_neg hquote]
    dsimp only
    rw [hrest, hlength, Nat.add_assoc, if_pos hcount, ite_self]

/-- The next quote -/
theorem scan_quote {st st' : Scan} {i : Nat} (h : st.quote i = .ok st') (rs : List Rune) :
    scan st i (.char '"' :: rs) = scan st' (i + 1) rs := by
  rw [scan, if_pos rfl, h]
  dsimp only
  rw [if_neg (by decide)]
  rfl

/-- Once the method is read, the loop keeps it. -/
theorem scan_kept {st st' : Scan} (hcount : st.countQuote = 2) {i : Nat} {rs : List Rune}
    (h : scan st i rs = .ok st') : st'.start = st.start ∧ st'.stop = st.stop := by
  induction rs generalizing i with
  | nil =>
    cases h
    exact ⟨rfl, rfl⟩
  | cons r rs ih =>
    rw [scan] at h
    by_cases hquote : r = .char '"'
    · have hthird : st.quote i = .error .wrongPacket := by
        unfold Scan.quote
        rw [hcount]
        rfl
      rw [if_pos hquote, hthird] at h
      cases h
    · rw [if_neg hquote] at h
      dsimp only at h
      by_cases hcomma : r = .char ','
      · rw [if_pos hcomma, if_neg (by omega)] at h
        cases h
        exact ⟨rfl, rfl⟩
      · rw [if_neg hcomma] at h
        exact ih h

/-- The variables after the second quote, when there are `n` bytes between the two. -/
def Scan.ended (n : Nat) : Scan :=
  { start := 2, stop := 2 + n, rest := 2 + n + 1, countQuote := 2 }

/-- Text with its first quotes around `cs`. -/
def quoted (cs : List Char) (tail : GoString) : GoString :=
  ofChars ['[', '"'] ++ (ofChars cs ++ (ofChars ['"'] ++ tail))

theorem runes_quoted (cs : List Char) (tail : GoString) :
    runes (quoted cs tail) =
      ['['].map .char ++ .char '"' :: (cs.map .char ++ .char '"' :: runes tail) := by
  unfold quoted
  rw [runes_ofChars_append, runes_ofChars_append, runes_ofChars_append]
  rfl

theorem length_quoted (cs : List Char) (tail : GoString) :
    (quoted cs tail).length = 2 + (ofChars cs).length + 1 + tail.length := by
  have hopen : (ofChars ['[', '"']).length = 2 := by decide
  have hclose : (ofChars ['"']).length = 1 := by decide
  unfold quoted
  rw [List.length_append, List.length_append, List.length_append, hopen, hclose]
  omega

/-- The loop reads `cs` for the method. -/
theorem scan_quoted {cs : List Char} (hcs : '"' ∉ cs) (tail : GoString) :
    scan {} 0 (runes (quoted cs tail)) =
      scan (Scan.ended (ofChars cs).length) (2 + (ofChars cs).length + 1) (runes tail) := by
  have hopen : scan {} 0 (['['].map .char ++
      .char '"' :: (cs.map .char ++ .char '"' :: runes tail)) =
      scan {} 1 (.char '"' :: (cs.map .char ++ .char '"' :: runes tail)) :=
    scan_chars (by decide) (by decide) 0 _
  have hfirst : Scan.quote {} 1 = .ok { start := 2, countQuote := 1 } := rfl
  have hmethod : scan { start := 2, countQuote := 1 } 2 (cs.map .char ++ .char '"' :: runes tail) =
      scan { start := 2, countQuote := 1 } (2 + (ofChars cs).length) (.char '"' :: runes tail) :=
    scan_chars (by decide) hcs 2 _
  have hsecond : Scan.quote { start := 2, countQuote := 1 } (2 + (ofChars cs).length) =
      .ok (Scan.ended (ofChars cs).length) := rfl
  rw [runes_quoted, hopen, scan_quote hfirst, hmethod, scan_quote hsecond]

/-! ## The method and the arguments -/

theorem slice_quoted (cs : List Char) (tail : GoString) :
    slice (quoted cs tail) 2 (2 + (ofChars cs).length) = .ok (ofChars cs) :=
  slice_append (ofChars ['[', '"']) (ofChars cs) (ofChars ['"'] ++ tail)

/-- What stands between the first two quotes is the method. -/
theorem getMethod_eq_ok {cs : List Char} (hcs : '"' ∉ cs) {tail method restText : GoString}
    (h : getMethod (quoted cs tail) = .ok (method, restText)) : method = ofChars cs := by
  unfold getMethod at h
  rw [scan_quoted hcs] at h
  cases hscan : scan (Scan.ended (ofChars cs).length) (2 + (ofChars cs).length + 1)
      (runes tail) with
  | error e =>
    rw [hscan] at h
    cases h
  | ok st =>
    obtain ⟨hstart, hstop⟩ : st.start = 2 ∧ st.stop = 2 + (ofChars cs).length :=
      scan_kept rfl hscan
    rw [hscan] at h
    dsimp only at h
    -- whatever comes after the second quote, the method stays where it is
    rw [hstart, hstop, slice_quoted] at h
    by_cases hlong : (quoted cs tail).length ≤ st.rest
    · rw [if_pos (Or.inr hlong)] at h
      cases h
    · rw [if_neg (by omega)] at h
      cases hrest : slice (quoted cs tail) st.rest ((quoted cs tail).length - 1) with
      | error e =>
        rw [hrest] at h
        cases h
      | ok text =>
        rw [hrest] at h
        cases h
        rfl

/-- What `Encode` writes after the ack id. -/
def payload (method args : GoString) : GoString :=
  ascii "[" ++ marshal method ++ ascii "," ++ args ++ ascii "]"

theorem payload_eq (method args : GoString) :
    payload method args = quoted (jsonChars method) (ascii "," ++ (args ++ ascii "]")) := by
  unfold payload quoted marshal ofChars
  rw [List.flatMap_append, List.flatMap_cons]
  simp only [List.append_assoc]
  rfl

/-- Without a quote in the method, the JSON of the method is read up to its end. -/
theorem getMethod_payload {method : GoString} (hquote : .char '"' ∉ runes method)
    (args : GoString) :
    getMethod (payload method args) = .ok (ofChars (jsonChars method), args) := by
  have hcs := quote_not_mem_jsonChars hquote
  generalize hn : (ofChars (jsonChars method)).length = n
  have hcomma : runes (ascii "," ++ (args ++ ascii "]")) =
      .char ',' :: runes (args ++ ascii "]") := runes_char_append ',' _
  have hloop : scan (Scan.ended n) (2 + n + 1)
      (.char ',' :: runes (args ++ ascii "]")) =
      .ok { Scan.ended n with rest := 2 + n + 1 + 1 } := rfl
  have hlength : (payload method args).length = 2 + n + 1 + (1 + (args.length + 1)) := by
    rw [payload_eq, length_quoted, hn, List.length_append, List.length_append]
    rfl
  have hmethod : slice (payload method args) 2 (2 + n) = .ok (ofChars (jsonChars method)) := by
    rw [payload_eq, ← hn]
    exact slice_quoted _ _
  have hargs : slice (payload method args) (2 + n + 1 + 1) (2 + n + 1 + 1 + args.length) =
      .ok args := by
    have hfront : (ascii "[" ++ marshal method ++ ascii ",").length = 2 + n + 1 + 1 := by
      unfold payload at hlength
      simp only [List.length_append] at hlength ⊢
      change _ + 1 = _ at hlength
      omega
    rw [← hfront]
    unfold payload
    rw [List.append_assoc]
    exact slice_append _ args (ascii "]")
  -- the loop ends at the comma, and the last byte is the closing bracket
  unfold getMethod
  rw [payload_eq, scan_quoted hcs, ← payload_eq, hcomma, hn, hloop]
  dsimp only [Scan.ended]
  rw [if_neg (by omega), hmethod, hlength]
  have hend : 2 + n + 1 + (1 + (args.length + 1)) - 1 = 2 + n + 1 + 1 + args.length := by omega
  rw [hend, hargs]
  rfl

/-- The method comes back exactly when its JSON is the method between quotes. -/
theorem getMethod_payload_iff (method args : GoString) :
    getMethod (payload method args) = .ok (method, args) ↔ method.Plain := by
  by_cases hquote : .char '"' ∈ runes method
  · constructor
    · intro h
      -- the method ends at the backslash before the quote
      obtain ⟨before, after, hchars, hfirst⟩ := jsonChars_quote hquote
      have hsplit : payload method args = quoted (before ++ ['\\'])
          (ofChars (after ++ ['"']) ++ (ascii "," ++ (args ++ ascii "]"))) := by
        rw [payload_eq, hchars]
        unfold quoted ofChars
        simp only [List.flatMap_append, List.flatMap_cons, List.flatMap_nil, List.append_assoc,
          List.append_nil]
      have hcs : '"' ∉ before ++ ['\\'] := by
        rw [List.mem_append, not_or]
        exact ⟨hfirst, by decide⟩
      rw [hsplit] at h
      have hmethod := getMethod_eq_ok hcs h
      rw [hmethod, runes_ofChars] at hquote
      obtain ⟨c, hc, heq⟩ := List.mem_map.mp hquote
      exact absurd (Rune.char.inj heq ▸ hc) hcs
    · intro hplain
      exact absurd (hplain _ hquote) (by decide)
  -- without a quote the method that comes back is its escaped text
  · rw [getMethod_payload hquote, ← ofChars_jsonChars_eq_iff]
    simp

/-! ## Packets -/

theorem encode_emit {m : Message} (h : m.type = .emit) :
    encode m = .ok (commonMessage ++ payload m.method m.args) := by
  unfold encode payload
  rw [h]
  simp [typeToText]

theorem encode_ackRequest {m : Message} (h : m.type = .ackRequest) :
    encode m = .ok (commonMessage ++ (itoa m.ackId ++ payload m.method m.args)) := by
  unfold encode payload
  rw [h]
  simp [typeToText]

theorem encode_ackResponse {m : Message} (h : m.type = .ackResponse) :
    encode m = .ok (ackMessage ++ (itoa m.ackId ++ (ascii "[" ++ m.args ++ ascii "]"))) := by
  unfold encode
  rw [h]
  simp [typeToText]

/-- The ack id is what stands before the bracket. -/
theorem getAck_itoa {type : GoString} (htype : type.length = 2) (n : Int64) (rest : GoString) :
    getAck (type ++ (itoa n ++ 91 :: rest)) = .ok (n, 91 :: rest) := by
  have hpos := length_itoa_pos n
  have hbracket : indexByte (itoa n ++ 91 :: rest) 91 = some (itoa n).length :=
    indexByte_append (not_mem_itoa (by decide) (by decide) n)
  have hlong : ¬ (type ++ (itoa n ++ 91 :: rest)).length < 4 := by
    simp only [List.length_append, List.length_cons]
    omega
  unfold getAck
  rw [if_neg hlong, ← htype, List.drop_left]
  dsimp only
  rw [hbracket]
  dsimp only
  rw [List.take_left, atoi_itoa, List.drop_left]

/-- Without an ack id there is none to read. -/
theorem getAck_bracket {type : GoString} (htype : type.length = 2) (rest : GoString) :
    ∃ e, getAck (type ++ 91 :: rest) = .error e := by
  unfold getAck
  split
  · exact ⟨_, rfl⟩
  · rw [← htype, List.drop_left]
    exact ⟨.numError [] .errSyntax, rfl⟩

theorem decode_commonMessage (rest : GoString) :
    decode (commonMessage ++ rest) =
      decodeArgs { type := .ackRequest, source := commonMessage ++ rest }
        (commonMessage ++ rest) := rfl

theorem decode_ackMessage (rest : GoString) :
    decode (ackMessage ++ rest) =
      decodeArgs { type := .ackResponse, source := ackMessage ++ rest } (ackMessage ++ rest) := rfl

/-- The message of a packet whose method and arguments were read. -/
def received (type : MessageType) (ackId : Int64) (data : GoString)
    (decoded : GoString × GoString) : Message :=
  { type := type, ackId := ackId, method := decoded.1, args := decoded.2, source := data }

theorem decode_emit (method args : GoString) :
    decode (commonMessage ++ payload method args) =
      (getMethod (payload method args)).map
        (received .emit 0 (commonMessage ++ payload method args)) := by
  obtain ⟨e, hack⟩ : ∃ e, getAck (commonMessage ++ payload method args) = .error e :=
    getAck_bracket rfl (marshal method ++ ascii "," ++ args ++ ascii "]")
  have hdrop : (commonMessage ++ payload method args).drop 2 = payload method args := rfl
  rw [decode_commonMessage]
  unfold decodeArgs
  rw [hack]
  dsimp only
  rw [if_neg (by decide), hdrop]
  cases getMethod (payload method args) <;> rfl

theorem decode_ackRequest (n : Int64) (method args : GoString) :
    decode (commonMessage ++ (itoa n ++ payload method args)) =
      (getMethod (payload method args)).map
        (received .ackRequest n (commonMessage ++ (itoa n ++ payload method args))) := by
  have hack : getAck (commonMessage ++ (itoa n ++ payload method args)) =
      .ok (n, payload method args) :=
    getAck_itoa rfl n (marshal method ++ ascii "," ++ args ++ ascii "]")
  rw [decode_commonMessage]
  unfold decodeArgs
  rw [hack]
  dsimp only
  rw [if_neg (by decide)]
  cases getMethod (payload method args) <;> rfl

theorem decode_ackResponse (n : Int64) (args : GoString) :
    let data := ackMessage ++ (itoa n ++ (ascii "[" ++ args ++ ascii "]"))
    decode data = .ok (received .ackResponse n data ([], args)) := by
  intro data
  have hack : getAck data = .ok (n, ascii "[" ++ args ++ ascii "]") :=
    getAck_itoa rfl n (args ++ ascii "]")
  have hslice : slice (ascii "[" ++ args ++ ascii "]") 1
      ((ascii "[" ++ args ++ ascii "]").length - 1) = .ok args := by
    have hend : (ascii "[" ++ args ++ ascii "]").length - 1 = 1 + args.length := by
      rw [List.length_append, List.length_append]
      rfl
    rw [hend, List.append_assoc]
    exact slice_append (ascii "[") args (ascii "]")
  change decode (ackMessage ++ (itoa n ++ (ascii "[" ++ args ++ ascii "]"))) = _
  rw [decode_ackMessage]
  unfold decodeArgs
  rw [hack]
  dsimp only
  rw [if_pos rfl, hslice]
  rfl

/-! ## Round trips -/

/-- `m'` is `m`, as far as `Decode` is to know it. -/
structure Same (m m' : Message) : Prop where
  type : m'.type = m.type
  ackId : m'.ackId = m.ackId
  method : m'.method = m.method
  args : m.type ≠ .close → m'.args = m.args

def RoundTrips (m : Message) : Prop :=
  ∃ data m', encode m = .ok data ∧ decode data = .ok m' ∧ Same m m'

/-- What the packet of a message has no place for is empty, and `Encode` does not have to escape
the method. -/
def Carried (m : Message) : Prop :=
  match m.type with
  | .open | .close => m.ackId = 0 ∧ m.method = []
  | .ping | .pong | .empty => m.ackId = 0 ∧ m.method = [] ∧ m.args = []
  | .emit => m.ackId = 0 ∧ m.method.Plain
  | .ackRequest => m.method.Plain
  | .ackResponse => m.method = []
  | .other _ => False

theorem roundTrips_iff_same {m m' : Message} {data : GoString} (hencode : encode m = .ok data)
    (hdecode : decode data = .ok m') : RoundTrips m ↔ Same m m' := by
  constructor
  · rintro ⟨data', m'', hencode', hdecode', hsame⟩
    rw [hencode] at hencode'
    cases hencode'
    rw [hdecode] at hdecode'
    cases hdecode'
    exact hsame
  · intro hsame
    exact ⟨data, m', hencode, hdecode, hsame⟩

theorem roundTrips_iff_plain {m : Message} {n : Int64} {data : GoString}
    (hencode : encode m = .ok data)
    (hdecode : decode data =
      (getMethod (payload m.method m.args)).map (received m.type n data))
    (hclose : m.type ≠ .close) : RoundTrips m ↔ m.ackId = n ∧ m.method.Plain := by
  cases hmethod : getMethod (payload m.method m.args) with
  | error e =>
    rw [hmethod] at hdecode
    constructor
    · rintro ⟨data', m', hencode', hdecode', -⟩
      rw [hencode] at hencode'
      cases hencode'
      rw [hdecode] at hdecode'
      cases hdecode'
    · rintro ⟨-, hplain⟩
      rw [(getMethod_payload_iff m.method m.args).mpr hplain] at hmethod
      cases hmethod
  | ok decoded =>
    rw [hmethod] at hdecode
    rw [roundTrips_iff_same hencode hdecode, ← getMethod_payload_iff m.method m.args, hmethod]
    constructor
    · intro hsame
      have hdecoded : decoded = (m.method, m.args) := Prod.ext hsame.method (hsame.args hclose)
      exact ⟨hsame.ackId.symm, by rw [hdecoded]⟩
    · rintro ⟨hack, hdecoded⟩
      cases hdecoded
      exact ⟨rfl, hack.symm, rfl, fun _ => rfl⟩

/-- Packets without an ack id and a method. -/
theorem roundTrips_iff_bare {m : Message} {data args : GoString} (hencode : encode m = .ok data)
    (hdecode : decode data = .ok (received m.type 0 data ([], args))) :
    RoundTrips m ↔ m.ackId = 0 ∧ m.method = [] ∧ (m.type ≠ .close → args = m.args) := by
  rw [roundTrips_iff_same hencode hdecode]
  constructor
  · intro hsame
    exact ⟨hsame.ackId.symm, hsame.method.symm, hsame.args⟩
  · rintro ⟨hack, hmethod, hargs⟩
    exact ⟨rfl, hack.symm, hmethod.symm, hargs⟩

/-- Packets that are their type only. -/
theorem roundTrips_iff_fixed {m : Message} {type : MessageType} (htype : m.type = type)
    (hfixed : type = .ping ∨ type = .pong ∨ type = .empty) :
    RoundTrips m ↔ m.ackId = 0 ∧ m.method = [] ∧ m.args = [] := by
  obtain ⟨data, hencode, hdecode⟩ : ∃ data, encode m = .ok data ∧
      decode data = .ok (received m.type 0 data ([], [])) := by
    unfold encode
    rw [htype]
    rcases hfixed with rfl | rfl | rfl
    · exact ⟨pingMessage, rfl, rfl⟩
    · exact ⟨pongMessage, rfl, rfl⟩
    · exact ⟨emptyMessage, rfl, rfl⟩
  have hclose : m.type ≠ .close := by
    rw [htype]
    rcases hfixed with rfl | rfl | rfl <;> decide
  rw [roundTrips_iff_bare hencode hdecode, imp_iff_right hclose, @eq_comm GoString [] m.args]

/-- A message comes back exactly when its packet carries all of it and the method needs no escape.
-/
theorem roundTrips_iff (m : Message) : RoundTrips m ↔ Carried m := by
  unfold Carried
  cases htype : m.type with
  | «open» =>
    have hencode : encode m = .ok (openMessage ++ m.args) := by
      unfold encode
      rw [htype]
      rfl
    have hdecode : decode (openMessage ++ m.args) =
        .ok (received m.type 0 (openMessage ++ m.args) ([], m.args)) := by
      rw [htype]
      rfl
    rw [roundTrips_iff_bare hencode hdecode]
    simp
  | close =>
    have hencode : encode m = .ok (closeMessage ++ m.args) := by
      unfold encode
      rw [htype]
      rfl
    have hdecode : decode (closeMessage ++ m.args) =
        .ok (received m.type 0 (closeMessage ++ m.args) ([], [])) := by
      rw [htype]
      rfl
    rw [roundTrips_iff_bare hencode hdecode]
    simp [htype]
  | ping => exact roundTrips_iff_fixed htype (by simp)
  | pong => exact roundTrips_iff_fixed htype (by simp)
  | empty => exact roundTrips_iff_fixed htype (by simp)
  | emit =>
    have hdecode := decode_emit m.method m.args
    rw [← htype] at hdecode
    exact roundTrips_iff_plain (encode_emit htype) hdecode (by rw [htype]; decide)
  | ackRequest =>
    have hdecode := decode_ackRequest m.ackId m.method m.args
    rw [← htype] at hdecode
    rw [roundTrips_iff_plain (encode_ackRequest htype) hdecode (by rw [htype]; decide)]
    exact and_iff_right rfl
  | ackResponse =>
    have hdecode := decode_ackResponse m.ackId m.args
    dsimp only at hdecode
    rw [← htype] at hdecode
    rw [roundTrips_iff_same (encode_ackResponse htype) hdecode]
    constructor
    · intro hsame
      exact hsame.method.symm
    · intro hmethod
      exact ⟨rfl, rfl, hmethod.symm, fun _ => rfl⟩
  | other n =>
    constructor
    · rintro ⟨data, m', hencode, -⟩
      unfold encode at hencode
      rw [htype] at hencode
      cases hencode
    · intro h
      cases h

/-- The quote of the method `a"b` is escaped, and taken for the end of the method. -/
theorem not_roundTrips_quote :
    ¬ RoundTrips { type := .emit, method := ascii "a\"b" } := by
  rintro ⟨data, m', hencode, hdecode, -⟩
  have hpacket : encode { type := .emit, method := ascii "a\"b" } =
      .ok (ascii "42[\"a\\\"b\",]") := by
    decide +kernel
  rw [hpacket] at hencode
  cases hencode
  have hfails : decode (ascii "42[\"a\\\"b\",]") = .error .wrongPacket := by
    decide +kernel
  rw [hfails] at hdecode
  cases hdecode

end Kotsadm.Operator.Protocol
