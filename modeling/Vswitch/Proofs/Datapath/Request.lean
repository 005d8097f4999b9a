import Vswitch.Datapath.Operation
import Vswitch.Proofs.Exchange.Admission
import Vswitch.Proofs.Flow.Codec

/-!
# Requests to a datapath

A request about a datapath names a family and a command, and its body spells attributes behind the
index of the datapath. If one of the attributes is too long, at whatever depth, there is no request and
the exchange is not touched. Otherwise nothing of the attributes is lost, the message is within what a
length field can say, and the other side reads what was to be sent.

* `Execution.Representable`, `Execution.decode_of_reads`: a packet to be treated, read back;
* `Request.Carries`, `Request.IsReadAs`: what a request says, and what the other side reads;
* `Families.request_finishes`: a request is whole, or an attribute is too long;
* `Operation.DeliversOrRefuses`, `Operation.requests_arrive_intact`: flows and packets arrive intact or
  not at all.
-/

namespace Vswitch

open AttrTree

/-! ## Packets to be treated -/

namespace Execution

/-- All keys and actions are told apart. -/
structure Representable (e : Execution) : Prop where
  keys : ∀ key ∈ e.keys, key.Representable
  actions : ∀ action ∈ e.actions, action.Representable

/-- A packet is read back with its keys and actions from what stands in its place. -/
theorem decode_of_reads {e : Execution} (he : e.Representable) {attrs : Attributes}
    (h : ReadsAll e.trees attrs) : decode attrs = .ok e := by
  have hpacketTree :
      first? e.trees PacketKind.packet = some (.leaf PacketKind.packet e.packet) := rfl
  have hkeyTree : first? e.trees PacketKind.key = some (.node PacketKind.key e.keys.trees) := rfl
  have hactionTree : first? e.trees PacketKind.actions =
      some (.node PacketKind.actions (FlowAction.trees e.actions)) := rfl
  obtain ⟨a, ha, hpacketReads⟩ := attr?_eq_some h hpacketTree
  obtain ⟨keyStream, hkeys, -, hkeyReads⟩ := read_asNested h hkeyTree
  obtain ⟨actionStream, hactions, -, hactionReads⟩ := read_asNested h hactionTree
  have hpacket : attrs.require PacketKind.packet = .ok a := by rw [Attributes.require, ha]
  have hvalue : a.value = e.packet := by rw [reads_leaf.mp hpacketReads]
  unfold decode
  simp only [bind, Except.bind, hpacket, hkeys, FlowMatch.decode_of_reads he.keys hkeyReads,
    hactions, FlowAction.decodeAll_of_reads he.actions hactionReads, hvalue]
  rfl

end Execution

/-! ## What a request says -/

namespace Request

/-- A request says to a family what `attrs` say about a datapath: behind its index the body has the
stream of the attributes, and nothing keeps the message from being sent. -/
structure Carries (r : Request) (family : UInt16) (header : GenericHeader) (index : Int32)
    (attrs : Attributes) : Prop where
  family : r.family = family
  header : r.header = header
  body : ∃ stream, r.body = Bytes.le32 index.toUInt32 ++ stream ∧ Attr.parse stream = .ok attrs
  fits : r.Fits

/-- Under any number and port, the datagram of a request holds one message and nothing else; it names
the family, and spells the header, the datapath and the attributes. -/
def IsReadAs (r : Request) (family : UInt16) (header : GenericHeader) (index : Int32)
    (attrs : Attributes) : Prop :=
  ∀ seq port, ∃ datagram m, Datagram.encode (r.toMessage seq port) = .ok datagram ∧
    Datagram.next datagram = .message m [] ∧ m.header.type = family ∧ m.header.flags = r.flags ∧
    m.header.seq = seq ∧ m.header.port = port ∧
    DatapathMessage.decode m = .ok ⟨header, index, attrs⟩

variable {r : Request} {family : UInt16} {header : GenericHeader} {index : Int32}
  {attrs : Attributes}

/-- Further flags change nothing of what a request says. -/
theorem Carries.withFlags (h : r.Carries family header index attrs) (flags : UInt16) :
    (r.withFlags flags).Carries family header index attrs :=
  ⟨h.family, h.header, h.body, h.fits⟩

/-- Asking for an acknowledgement leaves what a request carries. -/
theorem Carries.ack (h : r.Carries family header index attrs) :
    r.ack.Carries family header index attrs := h.withFlags Flag.ack

theorem expectsAck_ack (r : Request) : r.ack.expectsAck = true := by
  show Flag.isSet (r.flags ||| Flag.ack) Flag.ack = true
  rw [Flag.isSet, beq_iff_eq, ← UInt16.toBitVec_inj, UInt16.toBitVec_and, UInt16.toBitVec_or]
  ext i
  rw [BitVec.getElem_and, BitVec.getElem_or]
  cases Flag.ack.toBitVec[i] with
  | false => exact Bool.and_false _
  | true => rw [Bool.or_true, Bool.and_true]

/-- The other side finds one message in the datagram, under whatever number and port it is sent, and
reads there what the request says. -/
theorem Carries.isReadAs (h : r.Carries family header index attrs) :
    r.IsReadAs family header index attrs := by
  intro seq port
  obtain ⟨stream, hbody, hparse⟩ := h.body
  have hparts : (r.toMessage seq port).stamped.genericParts = .ok (r.header, r.body) :=
    genericParts_stamped r seq port
  have hlong : ¬ r.body.length < DatapathMessage.headerLength := by
    rw [hbody, List.length_append, Bytes.length_le32, DatapathMessage.headerLength]
    omega
  have hdrop : r.body.drop DatapathMessage.headerLength = stream := by
    rw [hbody]
    exact List.drop_left' (Bytes.length_le32 index.toUInt32)
  have hindex : (r.body.le32At 0).toInt32 = index := by
    rw [hbody, Bytes.le32At_le32]
    exact Int32.toInt32_toUInt32 index
  refine ⟨r.datagram seq port, (r.toMessage seq port).stamped, encode_of_fits h.fits,
    next_datagram h.fits, h.family, rfl, rfl, rfl, ?_⟩
  unfold DatapathMessage.decode
  simp only [hparts, Except.mapError, bind, Except.bind, if_neg hlong, hdrop, hparse, hindex,
    h.header]
  rfl

end Request

/-! ## A request is whole, or an attribute is too long -/

/-- A few attributes are far from what a length field can say. -/
theorem Request.fits_of_body {r : Request} {count : Nat} (hcount : count ≤ 1024)
    (hbody : r.body.length ≤ 4 + 65536 * count) : r.Fits := by
  show Header.size + (GenericHeader.size + r.body.length) < 4294967296
  simp only [Header.size, GenericHeader.size]
  omega

/-- A request of few attributes says all of them, unless one of them is too long. -/
theorem Families.request_finishes (families : Families) (family : DatapathFamily)
    (command : UInt8) (index : Int32) {trees : List AttrTree} (hcount : trees.length ≤ 1024) :
    (pruneAll trees ≠ trees ∧ ∃ type len,
        families.request family command index trees = .error (.attr (.tooLong type len))) ∨
      (pruneAll trees = trees ∧ ∃ r attrs, families.request family command index trees = .ok r ∧
        r.Carries (families.get family).id ⟨command, family.requestVersion⟩ index attrs ∧
        ReadsAll trees attrs) := by
  have haligned : 4 ∣ (Bytes.le32 index.toUInt32).length := by
    rw [Bytes.length_le32]
  unfold Families.request
  -- the body either loses a tree, and is refused for it, or is read back tree by tree
  cases body_finishes haligned trees with
  | inl htoo =>
    obtain ⟨hpruned, type, len, hfinish⟩ := htoo
    refine Or.inl ⟨hpruned, type, len, ?_⟩
    rw [hfinish]
    rfl
  | inr hwhole =>
    obtain ⟨hpruned, stream, attrs, hfinish, hparse, hreads⟩ := hwhole
    have hlength := length_of_finish haligned hfinish
    rw [Bytes.length_le32] at hlength
    refine Or.inr ⟨hpruned, (Request.ofCommand (families.get family).id command
      family.requestVersion).withBody (Bytes.le32 index.toUInt32 ++ stream), attrs, ?_, ?_, hreads⟩
    · rw [hfinish]
      rfl
    · exact ⟨rfl, rfl, ⟨stream, rfl, hparse⟩, Request.fits_of_body hcount hlength⟩

/-! ## Intact or not at all -/

namespace Operation

/-- An operation brings a value to the other side intact or not at all. Either one of the attributes
that spell it is too long: the operation fails with that, and the exchange is as it was and has done
nothing. Or the exchange is handed one request that asks for an acknowledgement, and the other side
reads the value from it, about the same datapath. -/
def DeliversOrRefuses {α β : Type} (op : Operation α) (trees : List AttrTree) (family : UInt16)
    (header : GenericHeader) (index : Int32) (decode : Attributes → Except AttrError β)
    (value : β) : Prop :=
  ∀ (x : Exchange) (responder : Responder),
    (pruneAll trees ≠ trees ∧ ∃ type len,
        op.start x responder = ((x, []), some (.attr (.tooLong type len)))) ∨
      (pruneAll trees = trees ∧ ∃ r attrs,
        op.start x responder = (x.step (.submit (.send r responder)), none) ∧
        r.expectsAck = true ∧ r.Carries family header index attrs ∧ decode attrs = .ok value ∧
        r.IsReadAs family header index attrs)

variable {α β : Type} {op : Operation α} {families : Families} {command : UInt8} {index : Int32}
  {trees : List AttrTree} {decode : Attributes → Except AttrError β} {value : β}
  {decorate : Request → Request}

/-- An operation that cannot compose its request submits nothing. -/
theorem start_of_error {error : DatapathError} (h : op.request = .error error) (x : Exchange)
    (responder : Responder) : op.start x responder = ((x, []), some error) := by
  rw [start, h]

/-- Else it submits the request and waits for the answer. -/
theorem start_of_ok {r : Request} (h : op.request = .ok r) (x : Exchange) (responder : Responder) :
    op.start x responder = (x.step (.submit (.send r responder)), none) := by
  rw [start, h]

/-- It is enough that the value is read from what stands in place of the trees, and that what else is
asked for comes down to flags, an acknowledgement among them. -/
theorem deliversOrRefuses (family : DatapathFamily)
    (hrequest : op.request = decorate <$> families.request family command index trees)
    (hcount : trees.length ≤ 1024) (hack : ∀ r, (decorate r).expectsAck = true)
    (hcarries : ∀ (r : Request) family header index attrs, r.Carries family header index attrs →
      (decorate r).Carries family header index attrs)
    (hdecode : ∀ attrs, ReadsAll trees attrs → decode attrs = .ok value) :
    op.DeliversOrRefuses trees (families.get family).id ⟨command, family.requestVersion⟩ index
      decode value := by
  intro x responder
  cases families.request_finishes family command index hcount with
  | inl htoo =>
    obtain ⟨hpruned, type, len, herror⟩ := htoo
    rw [herror] at hrequest
    exact Or.inl ⟨hpruned, type, len, start_of_error hrequest x responder⟩
  | inr hwhole =>
    obtain ⟨hpruned, r, attrs, hok, hr, hreads⟩ := hwhole
    rw [hok] at hrequest
    have hsent := hcarries r _ _ _ attrs hr
    exact Or.inr ⟨hpruned, decorate r, attrs, start_of_ok hrequest x responder, hack r, hsent,
      hdecode attrs hreads, hsent.isReadAs⟩

/-- A packet to be treated and a flow to be installed arrive intact or not at all. The flow arrives
without what only the datapath reports. -/
theorem requests_arrive_intact (families : Families) (datapath : Datapath) {e : Execution}
    {f : Flow} (he : e.Representable) (hf : f.Representable) :
    (executePacket families datapath e).DeliversOrRefuses e.trees families.packet.id
        ⟨PacketCommand.execute, DatapathFamily.packet.requestVersion⟩ datapath.index
        Execution.decode e ∧
      (createFlow families datapath f).DeliversOrRefuses f.trees families.flow.id
        ⟨DatapathCommand.new, DatapathFamily.flow.requestVersion⟩ datapath.index
        Flow.decode { keys := f.keys, actions := f.actions } := by
  constructor
  · refine deliversOrRefuses .packet rfl ?_ Request.expectsAck_ack ?_ ?_
    · show 3 ≤ 1024
      omega
    · intro r _ _ _ _ hr
      exact hr.ack
    · intro attrs hreads
      exact Execution.decode_of_reads he hreads
  · refine deliversOrRefuses .flow rfl ?_ ?_ ?_ ?_
    · show 2 ≤ 1024
      omega
    · intro r
      exact Request.expectsAck_ack _
    · intro r _ _ _ _ hr
      exact (hr.withFlags Flag.echo).ack
    · intro attrs hreads
      exact Flow.decode_of_reads hf hreads

/-- Families as a kernel may have registered them. -/
def registered : Families where
  datapath := ⟨"ovs_datapath", 0x18, 2, 4, 10, []⟩
  port := ⟨"ovs_vport", 0x19, 1, 4, 10, [("ovs_vport", 9)]⟩
  flow := ⟨"ovs_flow", 0x1a, 1, 4, 10, []⟩
  packet := ⟨"ovs_packet", 0x1b, 1, 4, 10, []⟩

/-- A frame that is longer than an attribute can be. -/
def oversized : Execution := ⟨Bytes.zeros 70000, [.inPort 1], [.output 2]⟩

/-- Tagged traffic that is sent out of two ports, the second time under another mark. -/
def mirrored : Flow where
  keys := [.inPort 4, .vlan 0x1005, .etherType 0x0806]
  actions := [.output 5, .set (.skbMark 77), .unknown 9 [1, 2, 3], .output 6]

theorem pruneAll_oversized_ne : pruneAll oversized.trees ≠ oversized.trees := by
  -- the length to rewrite with: the octets themselves are not to be counted
  have hlong : 65531 < oversized.packet.length := by
    rw [oversized, Bytes.length_zeros]
    decide
  have hnone : prune (.leaf PacketKind.packet oversized.packet) = none := by
    rw [prune, if_pos hlong]
  intro hall
  have hlength := congrArg List.length hall
  have hrest := length_pruneAll_le [.node PacketKind.key oversized.keys.trees,
    .node PacketKind.actions (FlowAction.trees oversized.actions)]
  rw [Execution.trees, pruneAll, hnone] at hlength
  simp only [Option.toList_none, List.nil_append, List.length_cons, List.length_nil] at hlength hrest
  omega

theorem requests_arrive_intact_oversized_mirrored :
    oversized.Representable ∧ mirrored.Representable ∧
      (∃ type len, (executePacket registered { index := 3, name := "dp" } oversized).start
          (Exchange.start 7 {}) (.waiting 1) =
        ((Exchange.start 7 {}, []), some (.attr (.tooLong type len)))) ∧
      ∃ r attrs, (createFlow registered { index := -3, name := "dp" } mirrored).start
          (Exchange.start 7 {}) (.waiting 1) =
        (((Exchange.start 7 {}).step (.submit (.send r (.waiting 1)))), none) ∧
        r.Carries 0x1a ⟨1, 1⟩ (-3) attrs ∧ Flow.decode attrs = .ok mirrored := by
  have hexecution : oversized.Representable := ⟨by decide, by decide⟩
  have hflow : mirrored.Representable := ⟨by decide, by decide⟩
  refine ⟨hexecution, hflow, ?_, ?_⟩
  · obtain ⟨hexecute, -⟩ :=
      requests_arrive_intact registered { index := 3, name := "dp" } hexecution hflow
    cases hexecute (Exchange.start 7 {}) (.waiting 1) with
    | inl htoo => exact htoo.2
    | inr hwhole => exact absurd hwhole.1 pruneAll_oversized_ne
  · obtain ⟨-, hcreate⟩ :=
      requests_arrive_intact registered { index := -3, name := "dp" } hexecution hflow
    have hfits : pruneAll mirrored.trees = mirrored.trees := rfl
    cases hcreate (Exchange.start 7 {}) (.waiting 1) with
    | inl htoo => exact absurd hfits htoo.1
    | inr hwhole =>
      obtain ⟨-, r, attrs, hstart, -, hcarries, hdecode, -⟩ := hwhole
      exact ⟨r, attrs, hstart, hcarries, hdecode⟩

end Operation

end Vswitch
