import Vswitch.Flow.Entry
import Vswitch.Proofs.Attribute.Reading

/-!
# Flows on the wire

A flow is written as two nested streams, one of keys and one of actions, and an action may hold a key
once more. Every key and every action comes back from the attribute that it is written as, in its
place. What is carried through without being modelled has to keep out of the way: its type is neither
one of those that are modelled nor one with flags.

* `FlowKey.Representable`, `FlowAction.Representable`, `Flow.Representable`: what the wire tells apart;
* `FlowKey.decode_of_reads`, `FlowAction.decode_of_reads`: one key and one action;
* `Flow.decode_of_reads`, `Flow.wire_round_trip`: a whole flow.
-/

namespace Vswitch

/-! ## What the wire tells apart -/

/-- The kinds of keys that are modelled. -/
def KeyKind.modelled : List UInt16 :=
  [priority, inPort, ethernet, vlan, etherType, ipv4, tcp, udp, icmp, arp, skbMark, tunnel]

/-- The kinds of actions that are modelled. -/
def ActionKind.modelled : List UInt16 := [output, userspace, set, pushVlan, popVlan]

/-- A type without flags. -/
def Attr.IsPlain (type : UInt16) : Prop := type < 0x4000

instance (type : UInt16) : Decidable (Attr.IsPlain type) :=
  inferInstanceAs (Decidable (type < 0x4000))

/-- A key that is carried through has a plain type of its own. -/
def FlowKey.Representable : FlowKey → Prop
  | .unknown type _ => Attr.IsPlain type ∧ type ∉ KeyKind.modelled
  | _ => True

instance FlowKey.decidableRepresentable : (key : FlowKey) → Decidable key.Representable
  | .unknown _ _ => inferInstanceAs (Decidable (_ ∧ _))
  | .priority _ | .inPort _ | .ethernet _ _ | .vlan _ | .etherType _ | .ipv4 _ | .tcp _ _
  | .udp _ _ | .icmp _ _ | .arp _ | .skbMark _ | .tunnel _ => isTrue trivial

/-- So has an action that is carried through, and a key that an action sets. -/
def FlowAction.Representable : FlowAction → Prop
  | .unknown type _ => Attr.IsPlain type ∧ type ∉ ActionKind.modelled
  | .set key => key.Representable
  | _ => True

instance FlowAction.decidableRepresentable : (action : FlowAction) → Decidable action.Representable
  | .unknown _ _ => inferInstanceAs (Decidable (_ ∧ _))
  | .set key => FlowKey.decidableRepresentable key
  | .output _ | .userspace _ _ | .pushVlan _ _ | .popVlan => isTrue trivial

/-- All keys and actions are told apart. -/
structure Flow.Representable (f : Flow) : Prop where
  keys : ∀ key ∈ f.keys, key.Representable
  actions : ∀ action ∈ f.actions, action.Representable

theorem Attr.IsPlain.and_kindMask {type : UInt16} (h : Attr.IsPlain type) :
    type &&& Attr.kindMask = type := by
  have hmask : Attr.kindMask.toNat = 2 ^ 14 - 1 := rfl
  have htype : type.toNat < 2 ^ 14 := h
  exact Bytes.and_mask_of_lt hmask htype

open AttrTree

variable {a : Attr} {type : UInt16}

/-! ## Values of keys -/

namespace FlowKey

/-- Ports come back from the four octets they were written to. -/
theorem decodePorts_of_reads {source destination : UInt16}
    (h : Reads (.leaf type (Bytes.be16 source ++ Bytes.be16 destination)) a) :
    decodePorts a = .ok (source, destination) := by
  have hraw : a.atLeast 4 4 = .ok (Bytes.be16 source ++ Bytes.be16 destination) :=
    h.atLeast (by simp)
  have hsource := Bytes.be16At_be16 source (Bytes.be16 destination)
  rw [decodePorts, hraw]
  simp only [bind, Except.bind, hsource, Bytes.be16At_two]
  rfl

/-- So does an IPv4 key from its twelve. -/
theorem decodeIpv4_of_reads {key : Ipv4Key} (h : Reads (.leaf type (ipv4Octets key)) a) :
    decodeIpv4 a = .ok key := by
  have hraw : a.atLeast 12 12 = .ok (ipv4Octets key) := h.atLeast (Nat.le_refl 12)
  have hfragment : FragmentType.ofOctet? ((ipv4Octets key).octet 11) = some key.fragment :=
    FragmentType.ofOctet?_toOctet key.fragment
  rw [decodeIpv4, hraw]
  simp only [bind, Except.bind, hfragment]
  rfl

/-- And an ARP key, the two octets of padding behind it being optional. -/
theorem decodeArp_of_reads {key : ArpKey} (h : Reads (.leaf type (arpOctets key)) a) :
    decodeArp a = .ok key := by
  have hraw : a.atLeast 24 22 = .ok (arpOctets key) := h.atLeast (by simp [arpOctets])
  have hoperation : (arpOctets key).be16At 8 = key.operation := by simp [arpOctets]
  have hsender : MacAddr.ofBytes (arpOctets key) 10 = key.senderMac := by simp [arpOctets]
  have htarget : MacAddr.ofBytes (arpOctets key) 16 = key.targetMac := by simp [arpOctets]
  rw [decodeArp, hraw]
  simp only [bind, Except.bind, hoperation, hsender, htarget]
  rfl

/-- Each kind is that of one attribute of an outer header, if that is there at all. -/
theorem first?_tunnelTrees (key : TunnelKey) :
    first? (tunnelTrees key) TunnelKind.id = key.id.map (.be64 TunnelKind.id) ∧
      first? (tunnelTrees key) TunnelKind.source = key.source.map (.ipv4 TunnelKind.source) ∧
      first? (tunnelTrees key) TunnelKind.destination =
        key.destination.map (.ipv4 TunnelKind.destination) ∧
      first? (tunnelTrees key) TunnelKind.tos = key.tos.map (.u8 TunnelKind.tos) ∧
      first? (tunnelTrees key) TunnelKind.ttl = key.ttl.map (.u8 TunnelKind.ttl) ∧
      first? (tunnelTrees key) TunnelKind.dontFragment =
        (if key.dontFragment then some (.flag TunnelKind.dontFragment) else none) ∧
      first? (tunnelTrees key) TunnelKind.checksum =
        (if key.checksum then some (.flag TunnelKind.checksum) else none) := by
  have hid (x : UInt64) : (AttrTree.be64 TunnelKind.id x).kind = TunnelKind.id := rfl
  have hsource (x : Ipv4Addr) : (AttrTree.ipv4 TunnelKind.source x).kind = TunnelKind.source := rfl
  have hdestination (x : Ipv4Addr) :
      (AttrTree.ipv4 TunnelKind.destination x).kind = TunnelKind.destination := rfl
  have htos (x : UInt8) : (AttrTree.u8 TunnelKind.tos x).kind = TunnelKind.tos := rfl
  have httl (x : UInt8) : (AttrTree.u8 TunnelKind.ttl x).kind = TunnelKind.ttl := rfl
  have hfragment : (AttrTree.flag TunnelKind.dontFragment).kind = TunnelKind.dontFragment := rfl
  have hchecksum : (AttrTree.flag TunnelKind.checksum).kind = TunnelKind.checksum := rfl
  unfold tunnelTrees
  simp only [first?_append, first?_optional hid, first?_optional hsource,
    first?_optional hdestination, first?_optional htos, first?_optional httl, first?_conditional,
    hfragment, hchecksum]
  -- what is left compares two of the seven kinds at a time
  simp [TunnelKind.id, TunnelKind.source, TunnelKind.destination, TunnelKind.tos, TunnelKind.ttl,
    TunnelKind.dontFragment, TunnelKind.checksum]

/-- A tunnel key is a list of attributes, and comes back from any reading of it. -/
theorem decodeTunnel_of_reads {key : TunnelKey} (h : Reads (.node type (tunnelTrees key)) a) :
    decodeTunnel a = .ok key := by
  obtain ⟨-, attrs, hattrs, hreads⟩ := reads_node.mp h
  obtain ⟨hid, hsource, hdestination, htos, httl, hfragment, hchecksum⟩ := first?_tunnelTrees key
  have readId := read?_of_first? hreads hid fun _ _ => Reads.asBe64
  have readSource := read?_of_first? hreads hsource fun _ _ => Reads.asIpv4
  have readDestination := read?_of_first? hreads hdestination fun _ _ => Reads.asIpv4
  have readTos := read?_of_first? hreads htos fun _ _ => Reads.asU8
  have readTtl := read?_of_first? hreads httl fun _ _ => Reads.asU8
  have hasFragment : attrs.has TunnelKind.dontFragment = key.dontFragment := by
    rw [has_eq hreads, hfragment]
    cases key.dontFragment <;> rfl
  have hasChecksum : attrs.has TunnelKind.checksum = key.checksum := by
    rw [has_eq hreads, hchecksum]
    cases key.checksum <;> rfl
  rw [decodeTunnel, hattrs]
  simp only [bind, Except.bind, readId, readSource, readDestination, readTos, readTtl, hasFragment,
    hasChecksum]
  rfl

/-! ## Keys -/

/-- A key is written under its own kind. -/
theorem kind_tree {key : FlowKey} (hkey : key.Representable) : key.tree.kind = key.kind := by
  cases key with
  | unknown type value => exact hkey.1.and_kindMask
  | _ => rfl

/-- A key is read back from what stands in its place. -/
theorem decode_of_reads {key : FlowKey} (hkey : key.Representable) (h : Reads key.tree a) :
    decode a = .ok key := by
  -- the kind selects the branch, and the value is read there
  have hkind : a.kind = key.kind := h.kind_eq.trans (kind_tree hkey)
  unfold decode
  simp only [hkind]
  cases key with
  | priority value =>
    have hvalue : a.asU32 = .ok value := h.asU32
    rw [hvalue]
    rfl
  | inPort port =>
    have hvalue : a.asU32 = .ok port := h.asU32
    rw [hvalue]
    rfl
  | ethernet source destination =>
    have hraw : a.atLeast 12 12 = .ok (source.octets ++ destination.octets) :=
      h.atLeast (Nat.le_refl 12)
    rw [hraw]
    rfl
  | vlan word =>
    have hvalue : a.asBe16 = .ok word := h.asBe16
    rw [hvalue]
    rfl
  | etherType value =>
    have hvalue : a.asBe16 = .ok value := h.asBe16
    rw [hvalue]
    rfl
  | ipv4 key =>
    rw [decodeIpv4_of_reads h]
    rfl
  | tcp source destination =>
    rw [decodePorts_of_reads h]
    rfl
  | udp source destination =>
    rw [decodePorts_of_reads h]
    rfl
  | icmp type code =>
    have hraw : a.atLeast 2 2 = .ok [type, code] := h.atLeast (Nat.le_refl 2)
    rw [hraw]
    rfl
  | arp key =>
    rw [decodeArp_of_reads h]
    rfl
  | skbMark mark =>
    have hvalue : a.asU32 = .ok mark := h.asU32
    rw [hvalue]
    rfl
  | tunnel key =>
    rw [decodeTunnel_of_reads h]
    rfl
  | unknown type value =>
    -- no kind that has a branch of its own is this one
    have hother := hkey.2
    simp only [KeyKind.modelled, List.mem_cons, List.not_mem_nil, or_false, not_or] at hother
    have hvalue : a.value = value := by rw [reads_leaf.mp h]
    simp only [FlowKey.kind, hother, if_false, hvalue]
    rfl

end FlowKey

/-- The keys come back in order, each read on its own. -/
theorem FlowMatch.decode_of_reads {keys : FlowMatch} (hkeys : ∀ key ∈ keys, key.Representable)
    {attrs : Attributes} (h : ReadsAll keys.trees attrs) : FlowMatch.decode attrs = .ok keys :=
  mapM_of_readsAll (fun key hkey _ => FlowKey.decode_of_reads (hkeys key hkey)) h

/-! ## Actions -/

namespace FlowAction

/-- User data is found behind the port number, if there is any. -/
theorem first?_userspace (pid : UInt32) (userdata : Option Bytes) :
    first? (.u32 UserspaceKind.pid pid :: (userdata.map (.leaf UserspaceKind.userdata)).toList)
        UserspaceKind.userdata = userdata.map (.leaf UserspaceKind.userdata) := by
  have hpid : (AttrTree.u32 UserspaceKind.pid pid).kind = UserspaceKind.pid := rfl
  have hother : UserspaceKind.pid ≠ UserspaceKind.userdata := by decide
  have hdata (data : Bytes) :
      (AttrTree.leaf UserspaceKind.userdata data).kind = UserspaceKind.userdata := rfl
  rw [first?_cons, hpid, if_neg hother, first?_optional hdata, if_pos rfl]

/-- An action is read back from what stands in its place. -/
theorem decode_of_reads {action : FlowAction} (haction : action.Representable)
    (h : Reads action.tree a) : decode a = .ok action := by
  have hkind : a.kind = action.tree.kind := h.kind_eq
  unfold decode
  simp only [hkind]
  cases action with
  | output port =>
    have hvalue : a.asU32 = .ok port := h.asU32
    rw [hvalue]
    rfl
  | userspace pid userdata =>
    obtain ⟨-, attrs, hattrs, hreads⟩ := reads_node.mp h
    have hpid : attrs.read Attr.asU32 UserspaceKind.pid = .ok pid :=
      read_of_first? hreads rfl fun _ => Reads.asU32
    have hdata := value?_of_first? hreads (first?_userspace pid userdata)
    rw [hattrs]
    simp only [bind, Except.bind, hpid, hdata]
    rfl
  | set key =>
    -- the first attribute of the nested stream is the key
    obtain ⟨-, attrs, hattrs, hreads⟩ := reads_node.mp h
    rw [ReadsAll] at hreads
    obtain ⟨first, later, rfl, hfirst, -⟩ := hreads
    have hkey : FlowKey.decode first = .ok key := FlowKey.decode_of_reads haction hfirst
    rw [hattrs]
    simp only [bind, Except.bind, hkey]
    rfl
  | pushVlan tpid tci =>
    have hraw : a.exactly 4 = .ok (Bytes.be16 tpid ++ Bytes.be16 tci) := h.exactly (by simp)
    have htpid := Bytes.be16At_be16 tpid (Bytes.be16 tci)
    rw [hraw]
    simp only [bind, Except.bind, htpid, Bytes.be16At_two]
    rfl
  | popVlan => rfl
  | unknown type value =>
    have htype : (AttrTree.leaf type value).kind = type := haction.1.and_kindMask
    have hother := haction.2
    simp only [ActionKind.modelled, List.mem_cons, List.not_mem_nil, or_false, not_or] at hother
    have hvalue : a.value = value := by rw [reads_leaf.mp h]
    simp only [tree, htype, hother, if_false, hvalue]
    rfl

/-- The actions come back in order, each read on its own. -/
theorem decodeAll_of_reads {actions : List FlowAction}
    (hactions : ∀ action ∈ actions, action.Representable) {attrs : Attributes}
    (h : ReadsAll (trees actions) attrs) : decodeAll attrs = .ok actions :=
  mapM_of_readsAll (fun action haction _ => decode_of_reads (hactions action haction)) h

end FlowAction

/-! ## Flows -/

namespace Flow

/-- A flow is read back from what stands in its place, without what only the datapath reports. -/
theorem decode_of_reads {f : Flow} (hf : f.Representable) {attrs : Attributes}
    (h : ReadsAll f.trees attrs) :
    decode attrs = .ok { keys := f.keys, actions := f.actions } := by
  have hkeyTree : first? f.trees FlowKind.key = some (.node FlowKind.key f.keys.trees) := rfl
  have hactionTree : first? f.trees FlowKind.actions =
      some (.node FlowKind.actions (FlowAction.trees f.actions)) := rfl
  obtain ⟨keyStream, hkeys, -, hkeyReads⟩ := read_asNested h hkeyTree
  obtain ⟨actionStream, -, hactions, hactionReads⟩ := read_asNested h hactionTree
  -- the writer leaves out what only the datapath reports
  have hstats : attrs.read? decodeStats FlowKind.stats = .ok none :=
    read?_of_first?_eq_none h rfl
  have hflags : attrs.read? Attr.asU8 FlowKind.tcpFlags = .ok none :=
    read?_of_first?_eq_none h rfl
  have hused : attrs.read? Attr.asU64 FlowKind.used = .ok none :=
    read?_of_first?_eq_none h rfl
  unfold decode
  simp only [bind, Except.bind, hkeys, FlowMatch.decode_of_reads hf.keys hkeyReads, hactions,
    FlowAction.decodeAll_of_reads hf.actions hactionReads, hstats, hflags, hused]
  rfl

/-- A flow that is written to an empty buffer either comes back with its keys and actions in order,
or has an attribute that exceeds its length, and then the writer says so. -/
theorem wire_round_trip {f : Flow} (hf : f.Representable) :
    (pruneAll f.trees ≠ f.trees ∧
        ∃ type len, (AttrTree.body [] f.trees).finish = .error (.tooLong type len)) ∨
      (pruneAll f.trees = f.trees ∧ ∃ bytes attrs, (AttrTree.body [] f.trees).finish = .ok bytes ∧
        Attr.parse bytes = .ok attrs ∧
        decode attrs = .ok
          { keys := f.keys, actions := f.actions, stats := none, tcpFlags := none,
            lastUsed := none }) := by
  have haligned : 4 ∣ ([] : Bytes).length := Nat.dvd_zero 4
  cases body_finishes haligned f.trees with
  | inl htoo => exact Or.inl htoo
  | inr hwhole =>
    obtain ⟨hpruned, bytes, attrs, hfinish, hparse, hreads⟩ := hwhole
    exact Or.inr ⟨hpruned, bytes, attrs, hfinish, hparse, decode_of_reads hf hreads⟩

/-- A tunnelled packet whose outer header is partly known, sent up with empty userdata and, after a
key is overwritten, out of a port; a key and an action are carried through. -/
def tunnelled : Flow where
  keys := [.inPort 3, .tunnel ⟨some 0xabcd, none, some ⟨10, 0, 0, 2⟩, none, some 64, true, false⟩,
    .etherType 0x0800, .unknown 20 [0, 0, 0, 1]]
  actions := [.userspace 77 (some []), .set (.udp 5000 53), .pushVlan 0x8100 0x1007,
    .unknown 6 [], .output 2]

theorem wire_round_trip_tunnelled :
    tunnelled.Representable ∧ pruneAll tunnelled.trees = tunnelled.trees ∧
      ∃ bytes attrs, (AttrTree.body [] tunnelled.trees).finish = .ok bytes ∧
        Attr.parse bytes = .ok attrs ∧ decode attrs = .ok tunnelled := by
  have hkeys : ∀ key ∈ tunnelled.keys, key.Representable := by decide
  have hactions : ∀ action ∈ tunnelled.actions, action.Representable := by decide
  have hfits : pruneAll tunnelled.trees = tunnelled.trees := rfl
  cases wire_round_trip ⟨hkeys, hactions⟩ with
  | inl htoo => exact absurd hfits htoo.1
  | inr hwhole => exact ⟨⟨hkeys, hactions⟩, hwhole⟩

end Flow

end Vswitch
