import Mathlib
import Vswitch.Proofs.Netlink.Datagram

/-!
# What the reader makes of any datagram

A buffer may hold anything. The reader takes messages off its front, one in each call, until it answers
that there is none or that the next one is malformed. It takes no octet twice and leaves none out: the
messages with the padding behind them, and what was there before the last call, are the whole datagram.

* `Datagram.call`, `Datagram.call_eq`: one call of the reader, with the buffer that it leaves;
* `Datagram.drain`: calls until there is no message;
* `Datagram.Piece`, `Datagram.IsRow`: a row of messages with what stands between them;
* `Datagram.next_cases`, `Datagram.exists_piece`: what one call finds, and takes off the buffer;
* `Datagram.drain_accounts`: what comes of every datagram, and in how many calls.
-/

namespace Vswitch

/-- A header is read from the octets that it consists of. -/
theorem Header.decode_append {front : Bytes} (h : size ≤ front.length) (rest : Bytes) :
    decode (front ++ rest) = decode front := by
  unfold size at h
  simp only [decode]
  rw [Bytes.le32At_append_left (by omega), Bytes.le16At_append_left (by omega),
    Bytes.le16At_append_left (by omega), Bytes.le32At_append_left (by omega),
    Bytes.le32At_append_left (by omega)]

/-- A header is written as the octets that it was read from. -/
theorem Header.encode_decode {data : Bytes} (h : size ≤ data.length) :
    (decode data).encode = data.take size := by
  unfold size at h
  simp only [decode, encode, size]
  rw [Bytes.le32_le32At (by omega), Bytes.le16_le16At (by omega), Bytes.le16_le16At (by omega),
    Bytes.le32_le32At (by omega), Bytes.le32_le32At (by omega), Bytes.slice_append_slice data 0 4 2,
    Bytes.slice_append_slice data 0 6 2, Bytes.slice_append_slice data 0 8 4,
    Bytes.slice_append_slice data 0 12 4, Bytes.slice_zero]

/-- How many octets align what follows a message. -/
def Message.gap (m : Message) : Nat := m.wireSize - m.length

namespace Datagram

variable {data buffer rest left : Bytes} {m : Message} {error : MessageError}

/-! ## Calls of the reader -/

/-- One call of the reader: what it answers, and what it leaves in the buffer. A message is split off,
and then as much of its padding as there is. The buffer is cleared when its front is no message. -/
def call (buffer : Bytes) : Except MessageError (Option Message) × Bytes :=
  if buffer = [] then
    (.ok none, buffer)
  else if ¬ buffer.Covers Header.size then
    (.error (.truncated .netlinkHeader Header.size buffer.length), [])
  else
    let len := (buffer.le32At 0).toNat
    if len < Header.size then
      (.error (.invalidLength len), [])
    else if ¬ buffer.Covers len then
      (.error (.truncated .netlinkMessage len buffer.length), [])
    else
      let frame := buffer.take len
      let left := buffer.drop len
      let padding := min (Bytes.align4 len - len) left.length
      (.ok (some ⟨Header.decode frame, frame.drop Header.size⟩), left.drop padding)

theorem call_eq (buffer : Bytes) :
    call buffer = match next buffer with
      | .done => (.ok none, buffer)
      | .message m rest => (.ok (some m), rest)
      | .malformed error => (.error error, []) := by
  unfold call next
  by_cases hempty : buffer = []
  · rw [if_pos hempty, if_pos hempty]
  rw [if_neg hempty, if_neg hempty]
  by_cases hheader : ¬ buffer.Covers Header.size
  · simp only [if_pos hheader]
  simp only [if_neg hheader]
  by_cases hshort : (buffer.le32At 0).toNat < Header.size
  · simp only [if_pos hshort]
  simp only [if_neg hshort]
  by_cases hcovers : ¬ buffer.Covers (buffer.le32At 0).toNat
  · simp only [if_pos hcovers]
  simp only [if_neg hcovers]
  -- past the guards, both take `len` octets and what aligns them
  generalize (buffer.le32At 0).toNat = len at *
  rw [Decidable.not_not, Bytes.covers_iff] at hcovers
  have hlength : (buffer.take len).length = len := List.length_take_of_le hcovers
  have hdecode : Header.decode (buffer.take len) = Header.decode buffer := by
    conv_rhs => rw [← List.take_append_drop len buffer]
    rw [Header.decode_append (by omega)]
  have hpayload : (buffer.take len).drop Header.size =
      buffer.slice Header.size (len - Header.size) := by
    rw [List.drop_take, Bytes.slice]
  have hrest : (buffer.drop len).drop (min (Bytes.align4 len - len) (buffer.drop len).length) =
      buffer.drop (Bytes.align4 len) := by
    have hle := Bytes.le_align4 len
    rw [Bytes.drop_min_length, List.drop_drop, Nat.add_sub_cancel' hle]
  rw [hdecode, hpayload, hrest]

/-- What comes of calling the reader until it answers no message. -/
structure Drained where
  messages : List Message
  /-- What the buffer held before the last call. -/
  unread : Bytes
  failure : Option MessageError
  /-- What it holds after that call. -/
  buffer : Bytes
  deriving DecidableEq, Repr

/-- Calls the reader until it answers no message. Nothing comes of it when the calls are used up
before. -/
def drain : (calls : Nat) → (buffer : Bytes) → Option Drained
  | 0, _ => none
  | calls + 1, buffer =>
    match call buffer with
    | (.ok (some m), left) => (drain calls left).map fun d => { d with messages := m :: d.messages }
    | (.ok none, left) => some ⟨[], buffer, none, left⟩
    | (.error error, left) => some ⟨[], buffer, some error, left⟩

/-! ## Rows of messages -/

/-- A message with the octets that stand between it and the next one. -/
structure Piece where
  message : Message
  padding : Bytes
  deriving DecidableEq, Repr

namespace Piece

/-- The octets of a piece, with the header as it is. -/
def octets (p : Piece) : Bytes := p.message.header.encode ++ (p.message.payload ++ p.padding)

/-- The string that several pieces make up. -/
def join (pieces : List Piece) : Bytes := pieces.flatMap octets

/-- The piece with zeros behind its message, up to where the next one is aligned. -/
def zeroed (p : Piece) : Piece := ⟨p.message, Bytes.zeros p.message.gap⟩

theorem join_cons (p : Piece) (pieces : List Piece) : join (p :: pieces) = p.octets ++ join pieces :=
  List.flatMap_cons

end Piece

/-- A row of messages in front of `rest`: each tells its length, and each is padded in full, but for one
at the very end, which is padded at most so far. -/
inductive IsRow : (pieces : List Piece) → (rest : Bytes) → Prop where
  | nil (rest : Bytes) : IsRow [] rest
  | last {p : Piece} (hlen : p.message.header.len.toNat = p.message.length)
      (hpadding : p.padding.length ≤ p.message.gap) : IsRow [p] []
  | cons {p : Piece} {later : List Piece} {rest : Bytes}
      (hlen : p.message.header.len.toNat = p.message.length)
      (hpadding : p.padding.length = p.message.gap) (hlater : IsRow later rest) :
      IsRow (p :: later) rest

theorem IsRow.len_eq {pieces : List Piece} (h : IsRow pieces rest) :
    ∀ p ∈ pieces, p.message.header.len.toNat = p.message.length := by
  induction h with
  | nil => simp
  | last hlen _ => simpa using hlen
  | cons hlen _ _ ih =>
    intro p hp
    rcases List.mem_cons.mp hp with rfl | hlater
    · exact hlen
    · exact ih p hlater

/-- A message that tells its length is written as it is, with zeros behind it. -/
theorem octets_zeroed {p : Piece} (hlen : p.message.header.len.toNat = p.message.length) :
    p.zeroed.octets = p.message.octets := by
  have hstamped : p.message.stamped.header = p.message.header := by
    unfold Message.stamped
    rw [← hlen, UInt32.ofNat_toNat]
  rw [Message.octets, hstamped]
  rfl

/-- The messages of a row are all written. -/
theorem IsRow.encodeAll_eq {pieces : List Piece} (h : IsRow pieces rest) :
    encodeAll (pieces.map Piece.message) = .ok (Piece.join (pieces.map Piece.zeroed)) := by
  have hfits : ∀ m ∈ pieces.map Piece.message, m.length < UInt32.size := by
    intro m hm
    rcases List.mem_map.mp hm with ⟨p, hp, rfl⟩
    rw [← h.len_eq p hp]
    exact UInt32.toNat_lt _
  have hoctets : ∀ p ∈ pieces, p.zeroed.octets = p.message.octets := by
    intro p hp
    exact octets_zeroed (h.len_eq p hp)
  rw [encodeAll_of_lt hfits, Piece.join, List.flatMap_map, List.flatMap_map]
  exact congrArg Except.ok (List.flatMap_congr hoctets).symm

/-! ## One call -/

/-- No message can be read from the front of the buffer, although something is there. -/
def Unreadable (buffer : Bytes) : Prop :=
  buffer ≠ [] ∧ (buffer.length < Header.size ∨ (buffer.le32At 0).toNat < Header.size ∨
    buffer.length < (buffer.le32At 0).toNat)

/-- The reader finds that nothing is there, that no message can be read, or the message that the front
of the buffer declares. -/
theorem next_cases (buffer : Bytes) :
    (buffer = [] ∧ next buffer = .done) ∨
      (Unreadable buffer ∧ ∃ error, next buffer = .malformed error) ∨
      ∃ len, (buffer.le32At 0).toNat = len ∧ Header.size ≤ len ∧ len ≤ buffer.length ∧
        next buffer = .message ⟨Header.decode buffer, buffer.slice Header.size (len - Header.size)⟩
          (buffer.drop (Bytes.align4 len)) := by
  unfold next
  by_cases hempty : buffer = []
  · exact .inl ⟨hempty, if_pos hempty⟩
  right
  simp only [if_neg hempty]
  by_cases hheader : ¬ buffer.Covers Header.size
  · exact .inl ⟨⟨hempty, .inl (Nat.lt_of_not_le hheader)⟩, _, if_pos hheader⟩
  simp only [if_neg hheader]
  by_cases hshort : (buffer.le32At 0).toNat < Header.size
  · exact .inl ⟨⟨hempty, .inr (.inl hshort)⟩, _, if_pos hshort⟩
  simp only [if_neg hshort]
  by_cases hcovers : ¬ buffer.Covers (buffer.le32At 0).toNat
  · exact .inl ⟨⟨hempty, .inr (.inr (Nat.lt_of_not_le hcovers))⟩, _, if_pos hcovers⟩
  · exact .inr ⟨_, rfl, Nat.le_of_not_lt hshort, Decidable.not_not.mp hcovers, if_neg hcovers⟩

/-- What one call takes off the buffer is the message, octet for octet, and its padding. Some of that is
missing only if nothing is left. -/
theorem exists_piece (h : next data = .message m rest) :
    ∃ p : Piece, p.message = m ∧ data = p.octets ++ rest ∧ m.header.len.toNat = m.length ∧
      (p.padding.length = m.gap ∨ rest = [] ∧ p.padding.length ≤ m.gap) := by
  rcases next_cases data with ⟨-, hnext⟩ | ⟨-, error, hnext⟩ | ⟨len, hlen, hheader, hcovers, hnext⟩
  · cases hnext.symm.trans h
  · cases hnext.symm.trans h
  cases hnext.symm.trans h
  have hlength : Message.length ⟨Header.decode data, data.slice Header.size (len - Header.size)⟩ =
      len := by
    simp only [Message.length, Bytes.length_slice]
    omega
  have hgap : Message.gap ⟨Header.decode data, data.slice Header.size (len - Header.size)⟩ =
      Bytes.align4 len - len := by
    rw [Message.gap, Message.wireSize, hlength]
  rw [hlength, hgap]
  have hle := Bytes.le_align4 len
  have hpadding : (data.slice len (Bytes.align4 len - len)).length =
      min (Bytes.align4 len - len) (data.length - len) := Bytes.length_slice _ _ _
  refine ⟨⟨⟨Header.decode data, data.slice Header.size (len - Header.size)⟩,
    data.slice len (Bytes.align4 len - len)⟩, rfl, ?_, hlen, ?_⟩
  · -- header, payload and padding are neighbouring slices
    have hfront : data.take Header.size ++ data.slice Header.size (len - Header.size) =
        data.take len := by
      rw [Bytes.take_append_slice]
      congr 1
      omega
    have hwhole : data.take len ++ data.slice len (Bytes.align4 len - len) =
        data.take (Bytes.align4 len) := by
      rw [Bytes.take_append_slice, Nat.add_sub_cancel' hle]
    rw [Piece.octets, Header.encode_decode (Nat.le_trans hheader hcovers), ← List.append_assoc,
      hfront, hwhole, List.take_append_drop]
  · by_cases hfull : Bytes.align4 len ≤ data.length
    · left
      simp only [hpadding]
      omega
    · right
      refine ⟨List.drop_eq_nil_of_le (by omega), ?_⟩
      simp only [hpadding]
      omega

/-! ## All calls -/

/-- The calls account for a datagram: for each of its octets, and for how they end. -/
structure Accounts (data : Bytes) (d : Drained) : Prop where
  answers : messages data = (d.messages, d.failure)
  lengths : ∀ m ∈ d.messages, m.header.len.toNat = Header.size + m.payload.length
  /-- Written again, the messages are what was read, with zeros for all of the padding. -/
  row : ∃ pieces, pieces.map Piece.message = d.messages ∧ Piece.join pieces ++ d.unread = data ∧
    IsRow pieces d.unread ∧ encodeAll d.messages = .ok (Piece.join (pieces.map Piece.zeroed))
  failed_iff : d.failure.isSome ↔ Unreadable d.unread
  finished : d.failure = none → d.unread = []
  emptied : d.buffer = []

theorem accounts_nil : Accounts [] ⟨[], [], none, []⟩ where
  answers := messages_nil
  lengths := by simp
  row := ⟨[], rfl, rfl, .nil _, rfl⟩
  failed_iff := ⟨nofun, fun h => absurd rfl h.1⟩
  finished _ := rfl
  emptied := rfl

theorem accounts_of_malformed (hunreadable : Unreadable data) (h : next data = .malformed error) :
    Accounts data ⟨[], data, some error, []⟩ where
  answers := messages_of_malformed h
  lengths := by simp
  row := ⟨[], rfl, rfl, .nil _, rfl⟩
  failed_iff := ⟨fun _ => hunreadable, fun _ => rfl⟩
  finished := nofun
  emptied := rfl

/-- One more message in front. -/
theorem Accounts.cons {d : Drained} (h : Accounts left d) (hnext : next data = .message m left) :
    Accounts data { d with messages := m :: d.messages } := by
  rcases h with ⟨hanswers, hlengths, ⟨pieces, hmap, hjoin, hrow, -⟩, hfailed, hfinished, hemptied⟩
  rcases exists_piece hnext with ⟨p, rfl, hdata, hlen, hpadding⟩
  have hlonger : IsRow (p :: pieces) d.unread := by
    rcases hpadding with hfull | ⟨hnothing, hpart⟩
    · exact .cons hlen hfull hrow
    · -- nothing is left, so this is the last message
      rw [← hjoin, List.append_eq_nil_iff] at hnothing
      cases pieces with
      | nil =>
        rw [hnothing.2]
        exact .last hlen hpart
      | cons q later =>
        have hheader : q.message.header.encode.length = 0 := by
          have hnil := (List.append_eq_nil_iff.mp ((Piece.join_cons q later).symm.trans hnothing.1)).1
          rw [(List.append_eq_nil_iff.mp hnil).1]
          rfl
        rw [Header.length_encode] at hheader
        contradiction
  have hmessages : (p :: pieces).map Piece.message = p.message :: d.messages := by
    rw [List.map_cons, hmap]
  refine ⟨?_, ?_, ⟨p :: pieces, hmessages, ?_, hlonger, ?_⟩, hfailed, hfinished, hemptied⟩
  · rw [messages_of_message hnext, hanswers]
  · exact List.forall_mem_cons.mpr ⟨hlen, hlengths⟩
  · rw [Piece.join_cons, List.append_assoc, hjoin, hdata]
  · rw [← hmessages]
    exact hlonger.encodeAll_eq

/-- Each message takes its header off the buffer, so the calls are not used up. -/
theorem exists_drained (calls : Nat) (data : Bytes) (h : data.length < Header.size * calls) :
    ∃ d, drain calls data = some d ∧ Accounts data d := by
  induction calls generalizing data with
  | zero => exact absurd h (Nat.not_lt_zero _)
  | succ calls ih =>
    have hcall := call_eq data
    rcases next_cases data with ⟨rfl, hnext⟩ | ⟨hunreadable, error, hnext⟩ | ⟨len, -, -, -, hnext⟩
    · rw [hnext] at hcall
      exact ⟨_, by rw [drain, hcall], accounts_nil⟩
    · rw [hnext] at hcall
      exact ⟨_, by rw [drain, hcall], accounts_of_malformed hunreadable hnext⟩
    · rw [hnext] at hcall
      have hless := length_rest_of_next hnext
      have henough : (data.drop (Bytes.align4 len)).length < Header.size * calls := by
        rw [Nat.mul_succ] at h
        omega
      rcases ih _ henough with ⟨d, hd, haccounts⟩
      refine ⟨_, ?_, haccounts.cons hnext⟩
      rw [drain, hcall]
      simp only [hd, Option.map_some]

/-- Whatever a datagram holds, the calls of the reader come to their end within one for each sixteen
octets and one more, and account for it. -/
theorem drain_accounts (data : Bytes) :
    ∃ d, drain (data.length / Header.size + 1) data = some d ∧ Accounts data d := by
  apply exists_drained
  unfold Header.size
  omega

-- a message of 17 octets with any padding, and sixteen octets that declare one less
example :
    drain 3 ([17, 0, 0, 0, 3, 0, 2, 0, 9, 0, 0, 0, 7, 0, 0, 0, 5, 0xaa, 0xbb, 0xcc] ++
        ([15, 0, 0, 0] ++ Bytes.zeros 12)) =
      some ⟨[⟨⟨17, 3, 2, 9, 7⟩, [5]⟩], [15, 0, 0, 0] ++ Bytes.zeros 12, some (.invalidLength 15), []⟩ := by
  decide

end Datagram

end Vswitch
