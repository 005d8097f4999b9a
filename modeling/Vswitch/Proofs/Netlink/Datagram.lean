import Mathlib
import Vswitch.Netlink.Datagram
import Vswitch.Proofs.Bytes
import Vswitch.Proofs.Computation

/-!
# Datagrams read back

What is written for a message is read back as that message with its length filled in, whatever
follows it in the datagram. Messages that were composed here have their length filled in already, so
that several of them, written one after another, come back as they are.

* `Message.attributes_of_payload`: the attributes of a generic message;
* `Message.octets`, `Datagram.encode_of_lt`, `Datagram.encode_of_le`: what is written, and which
  messages are refused;
* `Datagram.appendTo_eq`, `Datagram.appendAll_of_lt`: what is written behind a buffer;
* `Datagram.next_octets`: the first message of a datagram that begins with a written one;
* `Datagram.Yields`: what reading one message after another gives;
* `Datagram.messages_of_encodeAll`: written messages in front of anything else;
* `Datagram.composed_round_trip`: composed messages in a buffer, and read back from it.
-/

namespace Vswitch

/-- A header is read back from the front of a string. -/
theorem Header.decode_encode (h : Header) (rest : Bytes) :
    Header.decode (h.encode ++ rest) = h := by
  simp [Header.decode, Header.encode]

namespace Message

/-- The message with its length filled in. -/
def stamped (m : Message) : Message := { m with header.len := UInt32.ofNat m.length }

/-- The octets of a message: the header with the length filled in, the payload and the padding. -/
def octets (m : Message) : Bytes :=
  m.stamped.header.encode ++ (m.payload ++ Bytes.zeros (m.wireSize - m.length))

/-- A message takes its size on the wire, its padding included. -/
theorem length_octets (m : Message) : m.octets.length = m.wireSize := by
  have hle : m.length ≤ m.wireSize := Bytes.le_align4 m.length
  have hlength : m.length = Header.size + m.payload.length := rfl
  simp only [octets, List.length_append, Header.length_encode, Bytes.length_zeros]
  omega

/-- A payload that begins with a generic header is split behind it. -/
theorem genericParts_of_payload {m : Message} {header : GenericHeader} {body : Bytes}
    (hpayload : m.payload = header.encode ++ body) : m.genericParts = .ok (header, body) := by
  rw [genericParts, hpayload, if_neg (by simp)]
  rfl

/-- The attributes of a payload that has no header of the family's own. -/
theorem attributes_of_payload {m : Message} {header : GenericHeader} {body : Bytes}
    {attrs : Attributes} (hpayload : m.payload = header.encode ++ body)
    (hparse : Attr.parse body = .ok attrs) : m.attributes 0 = .ok (header, attrs) := by
  have hall : ¬ body.length < 0 := Nat.not_lt_zero _
  unfold attributes
  simp only [genericParts_of_payload hpayload, bind, Except.bind, if_neg hall, List.drop_zero, hparse]
  rfl

/-- A message as it is composed: by one of the four ways to begin it, and then any changes to its
number, its port and its flags. -/
inductive Composed : Message → Prop
  | ofPayload (type flags : UInt16) (payload : Bytes) : Composed (ofPayload type flags payload)
  | generic (family flags : UInt16) (header : GenericHeader) (body : Bytes) :
      Composed (generic family flags header body)
  | errorReply (request : Header) (code : Int32) : Composed (errorReply request code)
  | doneReply (seq port : UInt32) : Composed (doneReply seq port)
  | withSeq {m : Message} (h : Composed m) (seq : UInt32) : Composed (m.withSeq seq)
  | withPort {m : Message} (h : Composed m) (port : UInt32) : Composed (m.withPort port)
  | withFlags {m : Message} (h : Composed m) (flags : UInt16) : Composed (m.withFlags flags)

/-- The length was filled in from the payload, and no change touches either. -/
theorem Composed.stamped_eq {m : Message} (h : m.Composed) : m.stamped = m := by
  induction h with
  | ofPayload type flags payload => rfl
  | generic family flags header body => rfl
  | errorReply request code => rfl
  | doneReply seq port => rfl
  | @withSeq m _ seq ih =>
    show m.stamped.withSeq seq = m.withSeq seq
    rw [ih]
  | @withPort m _ port ih =>
    show m.stamped.withPort port = m.withPort port
    rw [ih]
  | @withFlags m _ flags ih =>
    show m.stamped.withFlags flags = m.withFlags flags
    rw [ih]

end Message

namespace Datagram

variable {m : Message}

/-- A message whose length fits is encoded. -/
theorem encode_of_lt (h : m.length < UInt32.size) : encode m = .ok m.octets := by
  rw [encode, if_pos h, Message.octets, List.append_assoc]
  rfl

/-- One whose length does not fit is refused with it. -/
theorem encode_of_le (h : UInt32.size ≤ m.length) : encode m = .error (.invalidLength m.length) := by
  rw [encode, if_neg (Nat.not_lt.mpr h)]

/-- A written message is the first one of a datagram that begins with it. -/
theorem next_octets (h : m.length < UInt32.size) (rest : Bytes) :
    next (m.octets ++ rest) = .message m.stamped rest := by
  have hle : m.length ≤ m.wireSize := Bytes.le_align4 m.length
  have hlength : m.length = Header.size + m.payload.length := rfl
  have hall : (m.octets ++ rest).length = m.wireSize + rest.length := by
    rw [List.length_append, Message.length_octets]
  have hne : m.octets ++ rest ≠ [] := by
    intro hnil
    rw [hnil] at hall
    simp only [List.length_nil, Header.size] at hall hlength
    omega
  -- the length field is the length, since it is short enough for the field
  have hlen : ((m.octets ++ rest).le32At 0).toNat = m.length := by
    simp only [Message.octets, Header.encode, List.append_assoc, Bytes.le32At_le32]
    exact UInt32.toNat_ofNat_of_lt' h
  have hheader : Header.decode (m.octets ++ rest) = m.stamped.header := by
    rw [Message.octets, List.append_assoc, Header.decode_encode]
  have hpayload : (m.octets ++ rest).slice Header.size (m.length - Header.size) = m.payload := by
    rw [Message.octets, List.append_assoc, List.append_assoc]
    exact Bytes.slice_behind (Header.length_encode _) (by omega)
  have hdrop : (m.octets ++ rest).drop (Bytes.align4 m.length) = rest := by
    rw [← Message.wireSize, ← Message.length_octets, List.drop_left]
  have hcovers : (m.octets ++ rest).Covers m.length := by
    rw [Bytes.covers_iff]
    omega
  have hfull : (m.octets ++ rest).Covers Header.size := by
    rw [Bytes.covers_iff]
    omega
  unfold next
  simp only [hlen]
  rw [if_neg hne, if_neg (not_not_intro hfull), if_neg (by omega), if_neg (not_not_intro hcovers),
    hheader, hpayload, hdrop]
  rfl

theorem messages_nil : messages [] = ([], none) := by
  rw [messages]
  rfl

/-- A message is followed by those of the rest. -/
theorem messages_of_message {data rest : Bytes} {m : Message} (h : next data = .message m rest) :
    messages data = (m :: (messages rest).1, (messages rest).2) := by
  rw [messages]
  split
  · rename_i hnext
    cases h.symm.trans hnext
  · rename_i hnext
    cases h.symm.trans hnext
  · rename_i hnext
    cases h.symm.trans hnext
    rfl

/-- What is malformed ends the list. -/
theorem messages_of_malformed {data : Bytes} {error : MessageError}
    (h : next data = .malformed error) : messages data = ([], some error) := by
  rw [messages]
  split
  · rename_i hnext
    cases h.symm.trans hnext
  · rename_i hnext
    cases h.symm.trans hnext
    rfl
  · rename_i hnext
    cases h.symm.trans hnext

/-- A datagram that holds a message and nothing else. -/
theorem messages_of_next {data : Bytes} {m : Message} (h : next data = .message m []) :
    messages data = ([m], none) := by
  rw [messages_of_message h, messages_nil]

/-- A message that was composed here is the only one of its datagram. -/
theorem messages_octets (hcomposed : m.Composed) (h : m.length < UInt32.size) :
    messages m.octets = ([m], none) := by
  have hnext := next_octets h []
  rw [List.append_nil, hcomposed.stamped_eq] at hnext
  exact messages_of_next hnext

/-! ## Behind a buffer -/

/-- A message is appended behind any buffer. -/
theorem appendTo_of_lt (h : m.length < UInt32.size) (buffer : Bytes) :
    appendTo buffer m = .ok (buffer ++ m.octets) := by
  have hle : m.length ≤ m.wireSize := Bytes.le_align4 m.length
  -- what is missing up to the aligned length does not depend on where the message starts
  have hmissing (k : Nat) : k + m.wireSize - m.length - k = m.wireSize - m.length := by omega
  rw [appendTo, if_pos h]
  simp only [Bytes.padTo, hmissing, Message.octets, List.append_assoc]
  rfl

/-- What is behind a buffer afterwards is what would be written alone. -/
theorem appendTo_eq (buffer : Bytes) (m : Message) :
    appendTo buffer m = (encode m).map (buffer ++ ·) := by
  by_cases h : m.length < UInt32.size
  · rw [appendTo_of_lt h, encode_of_lt h]
    rfl
  · rw [appendTo, if_neg h, encode_of_le (Nat.not_lt.mp h)]
    rfl

/-- Several are appended one after another. -/
theorem appendAll_of_lt {ms : List Message} (h : ∀ m ∈ ms, m.length < UInt32.size)
    (buffer : Bytes) : appendAll buffer ms = .ok (buffer ++ ms.flatMap Message.octets) := by
  unfold appendAll
  induction ms generalizing buffer with
  | nil =>
    rw [List.flatMap_nil, List.append_nil]
    rfl
  | cons m rest ih =>
    have hrest : ∀ m ∈ rest, m.length < UInt32.size := fun m' hm' => h m' (List.mem_cons_of_mem m hm')
    rw [List.foldlM_cons, appendTo_of_lt (h m List.mem_cons_self), List.flatMap_cons,
      ← List.append_assoc]
    exact ih hrest (buffer ++ m.octets)

/-- Encoding is appending to nothing. -/
theorem encodeAll_of_lt {ms : List Message} (h : ∀ m ∈ ms, m.length < UInt32.size) :
    encodeAll ms = .ok (ms.flatMap Message.octets) := by
  have hall : ms.mapM encode = .ok (ms.map Message.octets) := by
    induction ms with
    | nil => rfl
    | cons m rest ih =>
      have hrest := ih fun m' hm' => h m' (List.mem_cons_of_mem m hm')
      rw [List.mapM_cons, encode_of_lt (h m List.mem_cons_self), hrest]
      rfl
  rw [encodeAll, hall, List.flatMap_def]
  rfl

/-! ## One message after another -/

/-- Reading one message after another gives the messages in order and leaves the rest. -/
inductive Yields : (data : Bytes) → (ms : List Message) → (rest : Bytes) → Prop
  | nil (data : Bytes) : Yields data [] data
  | cons {data left rest : Bytes} {m : Message} {ms : List Message}
      (first : next data = .message m left) (later : Yields left ms rest) :
      Yields data (m :: ms) rest

/-- What was read comes first, and then the messages of the rest. -/
theorem Yields.messages_append {data rest : Bytes} {ms : List Message} (h : Yields data ms rest) :
    messages data = (ms ++ (messages rest).1, (messages rest).2) := by
  induction h with
  | nil data => rfl
  | cons first later ih => rw [messages_of_message first, ih, List.cons_append]

/-- What yields to the end has no error. -/
theorem Yields.messages_eq {data : Bytes} {ms : List Message} (h : Yields data ms []) :
    messages data = (ms, none) := by
  rw [h.messages_append, messages_nil, List.append_nil]

/-- Octets of messages yield these, with the lengths filled in, and then the rest. -/
theorem yields_octets {ms : List Message} (h : ∀ m ∈ ms, m.length < UInt32.size) (rest : Bytes) :
    Yields (ms.flatMap Message.octets ++ rest) (ms.map Message.stamped) rest := by
  induction ms with
  | nil => exact .nil rest
  | cons m later ih =>
    have hfirst := next_octets (h m List.mem_cons_self) (later.flatMap Message.octets ++ rest)
    rw [List.flatMap_cons, List.append_assoc]
    exact .cons hfirst (ih fun m' hm' => h m' (List.mem_cons_of_mem m hm'))

/-- Only messages that fit their length field are written. -/
theorem encodeAll_eq_ok {ms : List Message} {data : Bytes} :
    encodeAll ms = .ok data ↔
      (∀ m ∈ ms, m.length < UInt32.size) ∧ data = ms.flatMap Message.octets := by
  constructor
  · intro h
    obtain ⟨written, hwritten, -⟩ := bind_eq_ok.mp h
    have heach := exists_forall₂_iff.mp ⟨written, mapM_eq_ok.mp hwritten⟩
    have hfits : ∀ m ∈ ms, m.length < UInt32.size := by
      intro m hm
      by_contra hlong
      obtain ⟨octets, hoctets⟩ := heach m hm
      rw [encode_of_le (Nat.le_of_not_lt hlong)] at hoctets
      cases hoctets
    rw [encodeAll_of_lt hfits] at h
    cases h
    exact ⟨hfits, rfl⟩
  · rintro ⟨hfits, rfl⟩
    exact encodeAll_of_lt hfits

/-- Written messages are read back in front of anything else. -/
theorem messages_of_encodeAll {ms : List Message} {data : Bytes} (h : encodeAll ms = .ok data)
    (rest : Bytes) :
    messages (data ++ rest) = (ms.map Message.stamped ++ (messages rest).1, (messages rest).2) := by
  obtain ⟨hfits, rfl⟩ := encodeAll_eq_ok.mp h
  exact (yields_octets hfits rest).messages_append

theorem length_flatMap_octets (ms : List Message) :
    (ms.flatMap Message.octets).length = (ms.map Message.wireSize).sum := by
  rw [List.length_flatMap]
  simp only [Message.length_octets]

/-- Messages composed here that fit their length field, written one after another behind any buffer,
leave the buffer in place and take up their sizes. Read one after another they come back as they were,
and then nothing is left. -/
theorem composed_round_trip {ms : List Message} (hms : ∀ m ∈ ms, m.Composed)
    (hfits : ∀ m ∈ ms, m.length < UInt32.size) (buffer : Bytes) :
    ∃ appended, appendAll buffer ms = .ok (buffer ++ appended) ∧
      encodeAll ms = .ok appended ∧
      appended.length = (ms.map Message.wireSize).sum ∧
      (Yields appended ms [] ∧ next [] = .done) ∧ messages appended = (ms, none) := by
  have hstamped : ms.map Message.stamped = ms :=
    (List.map_congr_left fun m hm => (hms m hm).stamped_eq).trans (List.map_id' ms)
  have hyields : Yields (ms.flatMap Message.octets) ms [] := by
    have hread := yields_octets hfits []
    rwa [List.append_nil, hstamped] at hread
  exact ⟨ms.flatMap Message.octets, appendAll_of_lt hfits buffer, encodeAll_of_lt hfits,
    length_flatMap_octets ms, ⟨hyields, rfl⟩, hyields.messages_eq⟩

/-- A part of a reply with flags that no one knows, a refusal that sends the request back, and the end
of a reply: of 21, 36 and 20 octets. -/
def mixedReplies : List Message :=
  [((Message.generic 0x1a 0xf802 ⟨3, 1⟩ [0xff]).withSeq 9).withPort 77,
    Message.errorReply ⟨36, 0x1b, 0xf005, 9, 77⟩ (-19),
    (Message.doneReply 9 77).withFlags 0x8002]

theorem composed_round_trip_mixedReplies :
    (∀ m ∈ mixedReplies, m.Composed) ∧ (∀ m ∈ mixedReplies, m.length < UInt32.size) ∧
      ∃ appended, appendAll [1, 2, 3] mixedReplies = .ok ([1, 2, 3] ++ appended) ∧
        appended.length = 80 ∧ Yields appended mixedReplies [] ∧ next [] = .done := by
  have hcomposed : ∀ m ∈ mixedReplies, m.Composed := by
    intro m hm
    simp only [mixedReplies, List.mem_cons, List.not_mem_nil, or_false] at hm
    rcases hm with rfl | rfl | rfl
    · exact .withPort (.withSeq (.generic _ _ _ _) _) _
    · exact .errorReply _ _
    · exact .withFlags (.doneReply _ _) _
  have hfits : ∀ m ∈ mixedReplies, m.length < UInt32.size := by decide
  obtain ⟨appended, happend, -, hlength, hread, -⟩ :=
    composed_round_trip hcomposed hfits [1, 2, 3]
  exact ⟨hcomposed, hfits, appended, happend, hlength, hread⟩

end Datagram

end Vswitch
