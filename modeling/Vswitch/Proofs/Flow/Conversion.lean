import Mathlib
import Vswitch.Flow.Wildcard
import Vswitch.Proofs.Packet.Reading

/-!
# From exact keys to a partial match and back

A partial match has one field where an exact key may have several, and of some keys it keeps less than
they say. The keys of a frame set no field twice, so that the match has for each of them the fields
that the key carries. What it is turned back into is the key again, up to the bits of a tag besides
its identifier, and except that the fields of an ARP message come back as those of a packet.

* `WildcardMatch.has_ofFlowMatch`, `WildcardMatch.get?_ofFlowMatch`: fields that keys set, and others;
* `WildcardMatch.nodup_fieldsOf_ofFrame`: the keys of a frame set no field twice;
* `WildcardMatch.toFlowMatch_ofFrame`: the way back;
* `WildcardMatch.keys_come_back`: the way back for every frame that was read, and which of them get the
  key of a packet.
-/

namespace Vswitch

namespace FlowKey

/-- A key with no more of a tag than its identifier. -/
def trimmed : FlowKey → FlowKey
  | .vlan word => .vlan (vlanPresent ||| (word &&& Field.maxVlanId))
  | key => key

/-- What a key of a frame has become once its fields were taken apart and put together again. -/
def carriedBack : FlowKey → FlowKey
  | .arp key => .ipv4 ⟨key.senderIp, key.targetIp, key.operation.toUInt8, 0, 0, .none⟩
  | key => key.trimmed

end FlowKey

namespace WildcardMatch

variable {m : WildcardMatch} {keys : FlowMatch}

/-! ## Fields of keys -/

/-- The fields that keys set, in the order in which they are set. -/
def fieldsOf (keys : FlowMatch) : List Field := (keys.flatMap fieldsOfKey).map FieldUpdate.field

/-- The fields set by two runs of keys are those of the one, then those of the other. -/
theorem fieldsOf_append (front rest : FlowMatch) :
    fieldsOf (front ++ rest) = fieldsOf front ++ fieldsOf rest := by
  rw [fieldsOf, List.flatMap_append, List.map_append, fieldsOf, fieldsOf]

/-- Whether a match has the fields of a key. -/
def Has (m : WildcardMatch) (key : FlowKey) : Prop :=
  ∀ u ∈ fieldsOfKey key, m.get? u.field = u.value

/-- A key of two fields is held just by holding both values. -/
theorem get?_of_pair {f g : Field} {value : f.Value} {other : g.Value}
    (h : ∀ u ∈ [FieldUpdate.some f value, .some g other], m.get? u.field = u.value) :
    m.get? f = some value ∧ m.get? g = some other :=
  ⟨h _ List.mem_cons_self, h _ (List.mem_cons_of_mem _ List.mem_cons_self)⟩

/-- Updates leave a field alone that none of them is for. -/
theorem get_foldl_update {f : Field} {updates : List FieldUpdate}
    (h : f ∉ updates.map FieldUpdate.field) (v : FieldValues) :
    (updates.foldl (fun v u => v.update u.field u.value) v) f = v f := by
  induction updates generalizing v with
  | nil => rfl
  | cons u rest ih =>
    rw [List.map_cons, List.mem_cons, not_or] at h
    rw [List.foldl_cons, ih h.2, FieldValues.update_ne v u.value h.1]

/-- A field that is set once has the value that it was set to. -/
theorem get_foldl_update_of_mem {u : FieldUpdate} {updates : List FieldUpdate}
    (hnodup : (updates.map FieldUpdate.field).Nodup) (hu : u ∈ updates) (v : FieldValues) :
    (updates.foldl (fun v u => v.update u.field u.value) v) u.field = u.value := by
  induction updates generalizing v with
  | nil => cases hu
  | cons first rest ih =>
    obtain ⟨hfresh, hrest⟩ := List.nodup_cons.mp hnodup
    rw [List.foldl_cons]
    rcases List.mem_cons.mp hu with rfl | hlater
    · -- no later update has its field
      rw [get_foldl_update hfresh, FieldValues.update_self]
    · exact ih hrest hlater _

/-- A field that no key sets is open. -/
theorem get?_ofFlowMatch {f : Field} (h : f ∉ fieldsOf keys) : (ofFlowMatch keys).get? f = none := by
  refine (get_foldl_update h FieldValues.empty).trans ?_
  exact FieldValues.get_ofFn _ f

/-- Of keys that set no field twice the match has all the fields. -/
theorem has_ofFlowMatch (hnodup : (fieldsOf keys).Nodup) {key : FlowKey} (hkey : key ∈ keys) :
    (ofFlowMatch keys).Has key := by
  intro u hu
  exact get_foldl_update_of_mem hnodup (List.mem_flatMap.mpr ⟨key, hkey, hu⟩) FieldValues.empty

/-! ## Keys that are there -/

/-- A match sets one of some fields just if a value stands in one of them. -/
theorem setsAny_ofList {fields : List Field} :
    m.setsAny (.ofList fields) = true ↔ ∃ f ∈ fields, (m.get? f).isSome = true := by
  have hmem (f : Field) : f ∈ ((FieldSet.ofList fields).inter m.used).fields ↔
      f ∈ fields ∧ (m.get? f).isSome = true := by
    rw [FieldSet.mem_fields, ← List.contains_iff_mem]
    exact (Bool.and_eq_true _ _).to_iff
  rw [setsAny, Bool.not_eq_true', FieldSet.isEmpty, List.isEmpty_eq_false_iff_exists_mem]
  exact exists_congr hmem

theorem setsAny_of_mem {fields : List Field} {f : Field} {value : f.Value} (hf : f ∈ fields)
    (h : m.get? f = some value) : m.setsAny (.ofList fields) = true :=
  setsAny_ofList.mpr ⟨f, hf, Option.isSome_of_eq_some h⟩

/-- It sets none of them if all are open. -/
theorem setsAny_of_open {fields : List Field} (h : ∀ f ∈ fields, m.get? f = none) :
    m.setsAny (.ofList fields) = false := by
  rw [Bool.eq_false_iff, Ne, setsAny_ofList]
  rintro ⟨f, hf, hset⟩
  rw [h f hf] at hset
  cases hset

/-! ### One layer -/

/-- The keys that a match is turned into, up to the ether type. -/
def frontKeys (m : WildcardMatch) : FlowMatch :=
  ((m.get? .inputPort).map fun port => .inPort port).toList ++ m.tunnelKeys ++ m.ethernetKeys
    ++ ((m.get? .vlanId).map fun (id : UInt16) => .vlan (FlowKey.vlanPresent ||| id)).toList
    ++ ((m.get? .etherType).map fun type => .etherType type).toList

/-- The keys of a match come in three parts: the front ones, network and transport. -/
theorem toFlowMatch_eq (m : WildcardMatch) :
    m.toFlowMatch = m.frontKeys ++ m.networkKeys ++ m.transportKeys := rfl

/-- Open tunnel fields give no tunnel key. -/
theorem tunnelKeys_of_open
    (h : ∀ f ∈ [Field.tunnelId, .tunnelSource, .tunnelDestination], m.get? f = none) :
    m.tunnelKeys = [] := by
  rw [tunnelKeys, setsAny_of_open h]
  rfl

/-- The two addresses of a link key that is held come back as that key. -/
theorem ethernetKeys_of_has {source destination : MacAddr} (h : m.Has (.ethernet source destination)) :
    m.ethernetKeys = [.ethernet source destination] := by
  obtain ⟨hsource, hdestination⟩ := get?_of_pair h
  have hset : m.setsAny (.ofList [.ethernetSource, .ethernetDestination]) = true :=
    setsAny_of_mem List.mem_cons_self hsource
  simp only [ethernetKeys, hset, if_true, valueOr, hsource, hdestination]
  rfl

/-- So do the six fields of an IPv4 key. -/
theorem networkKeys_of_has {key : Ipv4Key} (h : m.Has (.ipv4 key)) : m.networkKeys = [.ipv4 key] := by
  simp only [Has, fieldsOfKey, List.forall_mem_cons] at h
  dsimp only [FieldUpdate.some] at h
  obtain ⟨hsource, hdestination, hprotocol, htos, httl, hfragment, -⟩ := h
  have hset : m.setsAny networkFields = true := setsAny_of_mem List.mem_cons_self hsource
  simp only [networkKeys, hset, if_true, valueOr, hsource, hdestination, hprotocol, htos, httl,
    hfragment]
  rfl

/-- The fields of an ARP message are enough for the key of a packet. -/
theorem networkKeys_of_has_arp {key : ArpKey} (h : m.Has (.arp key))
    (hopen : ∀ f ∈ [Field.networkTos, .networkTtl, .fragmentType], m.get? f = none) :
    m.networkKeys = [FlowKey.carriedBack (.arp key)] := by
  simp only [Has, fieldsOfKey, List.forall_mem_cons] at h
  dsimp only [FieldUpdate.some] at h
  obtain ⟨hsource, hdestination, hprotocol, -⟩ := h
  simp only [List.forall_mem_cons] at hopen
  obtain ⟨htos, httl, hfragment, -⟩ := hopen
  have hset : m.setsAny networkFields = true := setsAny_of_mem List.mem_cons_self hsource
  simp only [networkKeys, hset, if_true, valueOr, hsource, hdestination, hprotocol, htos, httl,
    hfragment]
  rfl

/-- Open network fields give no network key. -/
theorem networkKeys_of_open
    (h : ∀ f ∈ [Field.networkSource, .networkDestination, .networkProtocol, .networkTtl, .networkTos,
      .fragmentType], m.get? f = none) :
    m.networkKeys = [] := by
  rw [networkKeys, networkFields, setsAny_of_open h]
  rfl

/-- Open ports give no transport key. -/
theorem transportKeys_of_open
    (h : ∀ f ∈ [Field.transportSource, .transportDestination], m.get? f = none) :
    m.transportKeys = [] := by
  rw [transportKeys, setsAny_of_open h]
  rfl

/-- Ports come back as the key of the protocol that stands beside them. -/
theorem transportKeys_of_ports {source destination : UInt16} {protocol : UInt8}
    (hsource : m.get? .transportSource = some source)
    (hdestination : m.get? .transportDestination = some destination)
    (hprotocol : m.get? .networkProtocol = some protocol) :
    m.transportKeys =
      if protocol = IpProtocol.tcp then [.tcp source destination]
      else if protocol = IpProtocol.udp then [.udp source destination]
      else if protocol = IpProtocol.icmp then [.icmp source.toUInt8 destination.toUInt8]
      else [] := by
  have hset : m.setsAny (.ofList [.transportSource, .transportDestination]) = true :=
    setsAny_of_mem List.mem_cons_self hsource
  simp only [transportKeys, hset, if_true, valueOr, hsource, hdestination, hprotocol]
  rfl

/-- Ports come back under the protocol number that they were announced by. -/
theorem transportKeys_of_has {p : Ipv4Payload} {protocol : UInt8} (hself : p.protocol? = some protocol)
    (hprotocol : m.get? .networkProtocol = some protocol)
    (h : ∀ key ∈ FlowMatch.transportKeys p, m.Has key) :
    m.transportKeys = FlowMatch.transportKeys p := by
  cases p with
  | tcp t =>
    obtain rfl := Option.some.inj hself
    obtain ⟨hsource, hdestination⟩ := get?_of_pair (h _ List.mem_cons_self)
    exact transportKeys_of_ports hsource hdestination hprotocol
  | udp u =>
    obtain rfl := Option.some.inj hself
    obtain ⟨hsource, hdestination⟩ := get?_of_pair (h _ List.mem_cons_self)
    exact transportKeys_of_ports hsource hdestination hprotocol
  | icmp i =>
    obtain rfl := Option.some.inj hself
    obtain ⟨hsource, hdestination⟩ := get?_of_pair (h _ List.mem_cons_self)
    refine (transportKeys_of_ports hsource hdestination hprotocol).trans ?_
    -- type and code fit the ports that they stand in
    rw [if_neg (by decide), if_neg (by decide), if_pos rfl, UInt8.toUInt8_toUInt16,
      UInt8.toUInt8_toUInt16]
    rfl
  | data bytes => cases hself

/-! ## Keys of frames -/

/-- The keys of a frame up to its ether type. -/
def linkKeys (f : Ethernet) (inPort : UInt32) : FlowMatch :=
  [.inPort inPort, .ethernet f.source f.destination] ++ FlowMatch.vlanKeys f.vlan
    ++ [.etherType f.etherType]

/-- The fields that these keys can set. -/
def linkFields : List Field :=
  [.inputPort, .ethernetSource, .ethernetDestination, .vlanId, .etherType]

/-- The fields that the keys of what a frame carries can set. -/
def upperFields : List Field :=
  [.networkSource, .networkDestination, .networkProtocol, .networkTos, .networkTtl, .fragmentType,
    .transportSource, .transportDestination]

/-- The word of a tag that is there is marked, so that its identifier is taken. -/
theorem fieldsOfKey_marked (word : UInt16) :
    fieldsOfKey (.vlan (word ||| FlowKey.vlanPresent)) =
      [.some .vlanId ((word ||| FlowKey.vlanPresent) &&& Field.maxVlanId)] := by
  have habsorbs : (word ||| FlowKey.vlanPresent) &&& FlowKey.vlanPresent = FlowKey.vlanPresent := by
    apply UInt16.eq_of_toBitVec_eq
    ext i
    simpa using Or.inr
  have hmark : (word ||| FlowKey.vlanPresent) &&& FlowKey.vlanPresent ≠ 0 := by
    rw [habsorbs]
    decide
  exact if_neg hmark

/-- A tag sets the VLAN field, and an untagged frame leaves it open. -/
theorem fieldsOf_vlanKeys (vlan : Option VlanTag) :
    fieldsOf (FlowMatch.vlanKeys vlan) = (vlan.map fun _ => Field.vlanId).toList := by
  cases vlan with
  | none => rfl
  | some tag =>
    rw [FlowMatch.vlanKeys, fieldsOf, List.flatMap_singleton, fieldsOfKey_marked]
    rfl

/-- The link keys of a frame set link fields, each at most once. -/
theorem fieldsOf_linkKeys (f : Ethernet) (inPort : UInt32) :
    (fieldsOf (linkKeys f inPort)).Sublist linkFields := by
  have htag : (fieldsOf (FlowMatch.vlanKeys f.vlan)).Sublist [.vlanId] := by
    rw [fieldsOf_vlanKeys]
    cases f.vlan with
    | none => exact List.nil_sublist _
    | some tag => exact List.Sublist.refl _
  rw [linkKeys, fieldsOf_append, fieldsOf_append]
  exact (htag.append_left _).append_right _

/-- The transport keys set at most the two ports. -/
theorem fieldsOf_transportKeys (p : Ipv4Payload) :
    (fieldsOf (FlowMatch.transportKeys p)).Sublist [.transportSource, .transportDestination] := by
  cases p with
  | tcp | udp | icmp => exact List.Sublist.refl _
  | data => exact List.nil_sublist _

/-- The keys of a payload set fields above the link, each at most once. -/
theorem fieldsOf_payloadKeys (p : EthernetPayload) :
    (fieldsOf (FlowMatch.payloadKeys p)).Sublist upperFields := by
  cases p with
  | ipv4 p =>
    rw [FlowMatch.payloadKeys, FlowMatch.ipv4Keys, ← List.singleton_append, fieldsOf_append]
    refine List.Sublist.append_left ?_ _
    split_ifs
    · exact List.nil_sublist _
    · exact fieldsOf_transportKeys p.payload
  | arp a =>
    rw [FlowMatch.payloadKeys, FlowMatch.arpKeys]
    have hfirst : [Field.networkSource, .networkDestination, .networkProtocol].Sublist upperFields := by
      decide
    split
    · exact hfirst
    · exact List.nil_sublist _
  | lldp | data => exact List.nil_sublist _

/-- The fields of a frame's key are those of its link and then those of its payload. -/
theorem fieldsOf_ofFrame (f : Ethernet) (inPort : UInt32) :
    fieldsOf (FlowMatch.ofFrame f inPort) =
      fieldsOf (linkKeys f inPort) ++ fieldsOf (FlowMatch.payloadKeys f.payload) :=
  fieldsOf_append _ _

/-- The keys of a frame set no field twice. -/
theorem nodup_fieldsOf_ofFrame (f : Ethernet) (inPort : UInt32) :
    (fieldsOf (FlowMatch.ofFrame f inPort)).Nodup := by
  rw [fieldsOf_ofFrame]
  have hall : (linkFields ++ upperFields).Nodup := by decide
  exact hall.sublist ((fieldsOf_linkKeys f inPort).append (fieldsOf_payloadKeys f.payload))

section Frame

variable (f : Ethernet) (inPort : UInt32)

/-- The match made of a frame holds every key of the frame: no later key overwrites a field. -/
theorem has_ofFrame {key : FlowKey} (h : key ∈ FlowMatch.ofFrame f inPort) :
    (ofFrame f inPort).Has key :=
  has_ofFlowMatch (nodup_fieldsOf_ofFrame f inPort) h

theorem has_link {key : FlowKey} (h : key ∈ linkKeys f inPort) : (ofFrame f inPort).Has key :=
  has_ofFrame f inPort (List.mem_append_left _ h)

theorem has_payload {key : FlowKey} (h : key ∈ FlowMatch.payloadKeys f.payload) :
    (ofFrame f inPort).Has key :=
  has_ofFrame f inPort (List.mem_append_right _ h)

/-- Fields are open that neither the keys up to the ether type set nor those behind it. -/
theorem get?_of_not_set {fields link carried : List Field}
    (hlink : (fieldsOf (linkKeys f inPort)).Sublist link)
    (hcarried : (fieldsOf (FlowMatch.payloadKeys f.payload)).Sublist carried)
    (h : ∀ field ∈ fields, field ∉ link ++ carried) :
    ∀ field ∈ fields, (ofFrame f inPort).get? field = none := by
  intro field hfield
  refine get?_ofFlowMatch ?_
  intro hset
  rw [fieldsOf_ofFrame] at hset
  exact h field hfield ((hlink.append hcarried).subset hset)

/-- A frame says nothing of a tunnel. -/
theorem tunnelKeys_ofFrame : (ofFrame f inPort).tunnelKeys = [] :=
  tunnelKeys_of_open (get?_of_not_set f inPort (fieldsOf_linkKeys f inPort)
    (fieldsOf_payloadKeys f.payload) (by decide))

/-- The identifier of a tag comes back with the mark of a tag that is there. -/
theorem vlan_ofFrame :
    (((ofFrame f inPort).get? .vlanId).map fun (id : UInt16) =>
        FlowKey.vlan (FlowKey.vlanPresent ||| id)).toList =
      (FlowMatch.vlanKeys f.vlan).map FlowKey.carriedBack := by
  cases hvlan : f.vlan with
  | none =>
    have hfields : (fieldsOf (linkKeys f inPort)).Sublist
        [.inputPort, .ethernetSource, .ethernetDestination, .etherType] := by
      rw [linkKeys, hvlan]
      exact List.Sublist.refl _
    have hopen : ∀ field ∈ [Field.vlanId], (ofFrame f inPort).get? field = none :=
      get?_of_not_set f inPort hfields (fieldsOf_payloadKeys f.payload) (by decide)
    rw [hopen .vlanId List.mem_cons_self]
    rfl
  | some tag =>
    have htag : FlowKey.vlan (tag.toWord ||| FlowKey.vlanPresent) ∈ linkKeys f inPort := by
      rw [linkKeys, hvlan]
      exact List.mem_append_left _ (List.mem_append_right _ List.mem_cons_self)
    have hhas := has_link f inPort htag
    rw [Has, fieldsOfKey_marked] at hhas
    have hid : (ofFrame f inPort).get? .vlanId =
        some ((tag.toWord ||| FlowKey.vlanPresent) &&& Field.maxVlanId) := hhas _ List.mem_cons_self
    rw [hid]
    rfl

/-- The link keys come back in their order. -/
theorem frontKeys_ofFrame :
    (ofFrame f inPort).frontKeys = (linkKeys f inPort).map FlowKey.carriedBack := by
  have hhasPort : (ofFrame f inPort).Has (.inPort inPort) := has_link f inPort List.mem_cons_self
  have hhasEthernet : (ofFrame f inPort).Has (.ethernet f.source f.destination) :=
    has_link f inPort (List.mem_cons_of_mem _ List.mem_cons_self)
  have hhasType : (ofFrame f inPort).Has (.etherType f.etherType) :=
    has_link f inPort (List.mem_append_right _ List.mem_cons_self)
  have hport : (ofFrame f inPort).get? .inputPort = some inPort := hhasPort _ List.mem_cons_self
  have htype : (ofFrame f inPort).get? .etherType = some f.etherType :=
    hhasType _ List.mem_cons_self
  rw [frontKeys, vlan_ofFrame, tunnelKeys_ofFrame, ethernetKeys_of_has hhasEthernet, hport, htype]
  simp only [linkKeys, List.map_append]
  rfl

/-- The keys of a packet are those of its header and, unless it is a later fragment, of its segment. -/
theorem exists_ipv4Keys_eq (p : Ipv4) (h : p.announced = p) : ∃ segment : Ipv4Payload,
    segment.protocol?.getD p.protocol = p.protocol ∧ FlowMatch.ipv4Keys p =
      .ipv4 ⟨p.source, p.destination, p.protocol, p.tos, p.ttl, p.fragmentType⟩ ::
        FlowMatch.transportKeys segment := by
  rw [FlowMatch.ipv4Keys]
  split_ifs with hlater
  · exact ⟨.data [], rfl, rfl⟩
  · exact ⟨p.payload, congrArg Ipv4.protocol h, rfl⟩

/-- The IPv4 keys of an announced packet come back, and its transport keys behind them. -/
theorem ipv4_ofFrame {f : Ethernet} {p : Ipv4} (hpayload : f.payload = .ipv4 p) (h : p.announced = p)
    (inPort : UInt32) :
    (ofFrame f inPort).networkKeys ++ (ofFrame f inPort).transportKeys = FlowMatch.ipv4Keys p := by
  obtain ⟨segment, hannounced, hkeys⟩ := exists_ipv4Keys_eq p h
  have hcarried : FlowMatch.payloadKeys f.payload = FlowMatch.ipv4Keys p := by
    rw [hpayload]
    rfl
  rw [hkeys] at hcarried
  have hheader := has_payload f inPort (hcarried ▸ List.mem_cons_self)
  rw [networkKeys_of_has hheader, hkeys, List.singleton_append]
  congr 1
  rcases hself : segment.protocol? with _ | protocol
  · -- without a segment no port is set
    have hnone : FlowMatch.transportKeys segment = [] := by
      cases segment with
      | data bytes => rfl
      | tcp | udp | icmp => cases hself
    have hfields : (fieldsOf (FlowMatch.payloadKeys f.payload)).Sublist [.networkSource,
        .networkDestination, .networkProtocol, .networkTos, .networkTtl, .fragmentType] := by
      rw [hcarried, hnone]
      exact List.Sublist.refl _
    rw [hnone]
    exact transportKeys_of_open
      (get?_of_not_set f inPort (fieldsOf_linkKeys f inPort) hfields (by decide))
  · -- the header has the number by which the ports are told what they are
    rw [hself] at hannounced
    obtain rfl : protocol = p.protocol := hannounced
    have hprotocol : (ofFrame f inPort).get? .networkProtocol = some p.protocol :=
      hheader _ (List.mem_cons_of_mem _ (List.mem_cons_of_mem _ List.mem_cons_self))
    refine transportKeys_of_has hself hprotocol ?_
    intro key hkey
    exact has_payload f inPort (hcarried ▸ List.mem_cons_of_mem _ hkey)

/-- ARP over Ethernet and IPv4 has one key. -/
theorem payloadKeys_arp {a : Arp} {addrs : Arp.Addresses} (h : a.addresses? = some addrs) :
    FlowMatch.payloadKeys (.arp a) =
      [.arp ⟨addrs.senderIp, addrs.targetIp, a.operation, addrs.senderMac, addrs.targetMac⟩] := by
  rw [FlowMatch.payloadKeys, FlowMatch.arpKeys, h]

/-- It comes back as an IPv4 key, the operation standing in the protocol's field. -/
theorem arp_ofFrame {f : Ethernet} {key : ArpKey}
    (hkeys : FlowMatch.payloadKeys f.payload = [.arp key]) (inPort : UInt32) :
    (ofFrame f inPort).networkKeys ++ (ofFrame f inPort).transportKeys =
      [FlowKey.carriedBack (.arp key)] := by
  have hfields : (fieldsOf (FlowMatch.payloadKeys f.payload)).Sublist
      [.networkSource, .networkDestination, .networkProtocol] := by
    rw [hkeys]
    exact List.Sublist.refl _
  have hmessage := has_payload f inPort (hkeys ▸ List.mem_cons_self)
  have hlink := fieldsOf_linkKeys f inPort
  rw [networkKeys_of_has_arp hmessage (get?_of_not_set f inPort hlink hfields (by decide)),
    transportKeys_of_open (get?_of_not_set f inPort hlink hfields (by decide)), List.append_nil]

/-- A payload without keys brings none back. -/
theorem open_ofFrame {f : Ethernet} (hkeys : FlowMatch.payloadKeys f.payload = []) (inPort : UInt32) :
    (ofFrame f inPort).networkKeys ++ (ofFrame f inPort).transportKeys = [] := by
  have hfields : (fieldsOf (FlowMatch.payloadKeys f.payload)).Sublist [] := by
    rw [hkeys]
    exact List.Sublist.refl _
  have hlink := fieldsOf_linkKeys f inPort
  rw [networkKeys_of_open (get?_of_not_set f inPort hlink hfields (by decide)),
    transportKeys_of_open (get?_of_not_set f inPort hlink hfields (by decide)), List.append_nil]

/-- The network and the transport layer of what a frame carries. -/
theorem upper_ofFrame {f : Ethernet} (h : f.payload.announced = f.payload) (inPort : UInt32) :
    (ofFrame f inPort).networkKeys ++ (ofFrame f inPort).transportKeys =
      (FlowMatch.payloadKeys f.payload).map FlowKey.carriedBack := by
  cases hpayload : f.payload with
  | ipv4 p =>
    rw [hpayload] at h
    have hannounced : p.announced = p := EthernetPayload.ipv4.inj h
    obtain ⟨segment, -, hkeys⟩ := exists_ipv4Keys_eq p hannounced
    have hsame : (FlowMatch.transportKeys segment).map FlowKey.carriedBack =
        FlowMatch.transportKeys segment := by
      cases segment <;> rfl
    rw [ipv4_ofFrame hpayload hannounced, FlowMatch.payloadKeys, hkeys, List.map_cons, hsame]
    rfl
  | arp a =>
    cases haddresses : a.addresses? with
    | none =>
      have hkeys : FlowMatch.payloadKeys (.arp a) = [] := by
        rw [FlowMatch.payloadKeys, FlowMatch.arpKeys, haddresses]
      rw [open_ofFrame (hpayload ▸ hkeys), hkeys]
      rfl
    | some addrs =>
      have hkeys := payloadKeys_arp haddresses
      rw [arp_ofFrame (hpayload ▸ hkeys), hkeys]
      rfl
  | lldp l => exact open_ofFrame (congrArg FlowMatch.payloadKeys hpayload) inPort
  | data bytes => exact open_ofFrame (congrArg FlowMatch.payloadKeys hpayload) inPort

end Frame

/-! ## The way back -/

/-- An announced frame's keys come back one for one, each as its fields can carry it. -/
theorem toFlowMatch_ofFrame {f : Ethernet} (h : f.announced = f) (inPort : UInt32) :
    (ofFrame f inPort).toFlowMatch = (FlowMatch.ofFrame f inPort).map FlowKey.carriedBack := by
  have hupper := upper_ofFrame (congrArg Ethernet.payload h) inPort
  rw [toFlowMatch_eq, frontKeys_ofFrame, List.append_assoc, hupper, ← List.map_append]
  rfl

/-- Only the key of a packet and that of an ARP message come back as the key of a packet. -/
theorem exists_ipv4_mem_map (keys : FlowMatch) :
    (∃ key, FlowKey.ipv4 key ∈ keys.map FlowKey.carriedBack) ↔
      (∃ key, FlowKey.ipv4 key ∈ keys) ∨ ∃ key, FlowKey.arp key ∈ keys := by
  constructor
  · rintro ⟨key, hkey⟩
    obtain ⟨source, hsource, hback⟩ := List.mem_map.mp hkey
    cases source with
    | ipv4 key => exact .inl ⟨key, hsource⟩
    | arp key => exact .inr ⟨key, hsource⟩
    | _ => cases hback
  · rintro (⟨key, hkey⟩ | ⟨key, hkey⟩)
    · exact ⟨key, List.mem_map.mpr ⟨_, hkey, rfl⟩⟩
    · exact ⟨_, List.mem_map.mpr ⟨_, hkey, rfl⟩⟩

/-- No link key is a network key. -/
theorem not_mem_linkKeys (f : Ethernet) (inPort : UInt32) :
    (∀ key, FlowKey.ipv4 key ∉ linkKeys f inPort) ∧ ∀ key, FlowKey.arp key ∉ linkKeys f inPort := by
  cases hvlan : f.vlan <;> simp [linkKeys, FlowMatch.vlanKeys, hvlan]

/-- A frame has an IPv4 key just if it carries an IPv4 packet. -/
theorem exists_ipv4_mem_ofFrame (f : Ethernet) (inPort : UInt32) :
    (∃ key, FlowKey.ipv4 key ∈ FlowMatch.ofFrame f inPort) ↔ ∃ p, f.payload = .ipv4 p := by
  constructor
  · rintro ⟨key, hkey⟩
    have hupper := (List.mem_append.mp hkey).resolve_left ((not_mem_linkKeys f inPort).1 key)
    cases hpayload : f.payload with
    | ipv4 p => exact ⟨p, rfl⟩
    | arp a =>
      rw [hpayload, FlowMatch.payloadKeys, FlowMatch.arpKeys] at hupper
      split at hupper
      · cases List.mem_singleton.mp hupper
      · cases hupper
    | lldp | data =>
      rw [hpayload] at hupper
      cases hupper
  · rintro ⟨p, hpayload⟩
    have hfirst : FlowKey.ipv4 ⟨p.source, p.destination, p.protocol, p.tos, p.ttl, p.fragmentType⟩ ∈
        FlowMatch.payloadKeys f.payload := by
      rw [hpayload]
      exact List.mem_cons_self
    exact ⟨_, List.mem_append_right _ hfirst⟩

/-- It has an ARP key just if it carries ARP with Ethernet and IPv4 addresses. -/
theorem exists_arp_mem_ofFrame (f : Ethernet) (inPort : UInt32) :
    (∃ key, FlowKey.arp key ∈ FlowMatch.ofFrame f inPort) ↔
      ∃ a addrs, f.payload = .arp a ∧ a.addresses? = some addrs := by
  constructor
  · rintro ⟨key, hkey⟩
    have hupper := (List.mem_append.mp hkey).resolve_left ((not_mem_linkKeys f inPort).2 key)
    cases hpayload : f.payload with
    | ipv4 p =>
      rw [hpayload, FlowMatch.payloadKeys, FlowMatch.ipv4Keys] at hupper
      split_ifs at hupper
      · cases List.mem_singleton.mp hupper
      · cases hsegment : p.payload <;> simp [FlowMatch.transportKeys, hsegment] at hupper
    | arp a =>
      rw [hpayload, FlowMatch.payloadKeys, FlowMatch.arpKeys] at hupper
      split at hupper
      · rename_i addrs haddresses
        exact ⟨a, addrs, rfl, haddresses⟩
      · cases hupper
    | lldp | data =>
      rw [hpayload] at hupper
      cases hupper
  · rintro ⟨a, addrs, hpayload, haddresses⟩
    have hkeys := payloadKeys_arp haddresses
    rw [← hpayload] at hkeys
    exact ⟨_, List.mem_append_right _ (hkeys ▸ List.mem_cons_self)⟩

/-- The keys of a frame that was read, as they come back from its partial match. A key of a packet is
among them exactly if the frame carries a packet or an ARP message between Ethernet and IPv4
addresses. -/
theorem keys_come_back {bytes : Bytes} {f : Ethernet} (h : Ethernet.decode bytes = .ok f)
    (inPort : UInt32) :
    (ofFrame f inPort).toFlowMatch = (FlowMatch.ofFrame f inPort).map FlowKey.carriedBack ∧
      ((∃ key, FlowKey.ipv4 key ∈ (ofFrame f inPort).toFlowMatch) ↔
        f.etherType = EtherType.ipv4 ∨ ∃ a addrs, f.payload = .arp a ∧ a.addresses? = some addrs) := by
  have hback := toFlowMatch_ofFrame (Ethernet.announced_of_decode h) inPort
  obtain ⟨body, hpayload⟩ := Ethernet.payload_of_decode h
  refine ⟨hback, ?_⟩
  rw [hback, exists_ipv4_mem_map, exists_ipv4_mem_ofFrame, exists_arp_mem_ofFrame,
    EthernetPayload.isIpv4_iff_of_decode hpayload]

/-- A tagged frame with the question who has an address. -/
def taggedQuestion : Bytes :=
  [0xff, 0xff, 0xff, 0xff, 0xff, 0xff, 2, 0, 0, 0, 0, 1, 0x81, 0, 0xa0, 100, 8, 6, 0, 1, 8, 0, 6, 4, 0, 1,
    2, 0, 0, 0, 0, 1, 10, 0, 0, 1, 0, 0, 0, 0, 0, 0, 10, 0, 0, 2]

/-- What is read of it. -/
def taggedRequest : Ethernet where
  destination := .broadcast
  source := ⟨2, 0, 0, 0, 0, 1⟩
  vlan := some ⟨5, false, 100⟩
  etherType := EtherType.arp
  payload := .arp (Arp.request ⟨2, 0, 0, 0, 0, 1⟩ ⟨10, 0, 0, 1⟩ ⟨10, 0, 0, 2⟩)

theorem taggedQuestion_read : Ethernet.decode taggedQuestion = .ok taggedRequest := by decide

theorem keys_come_back_taggedQuestion :
    Ethernet.decode taggedQuestion = .ok taggedRequest ∧
      (ofFrame taggedRequest 1).toFlowMatch =
        [.inPort 1, .ethernet ⟨2, 0, 0, 0, 0, 1⟩ .broadcast, .vlan 0x1064, .etherType EtherType.arp,
          .ipv4 ⟨⟨10, 0, 0, 1⟩, ⟨10, 0, 0, 2⟩, 1, 0, 0, .none⟩] := by
  refine ⟨taggedQuestion_read, (keys_come_back taggedQuestion_read 1).1.trans ?_⟩
  decide

/-- An ARP message does not come back as itself: in its place stands the key of a packet, although the
frame carries none. -/
theorem not_forall_trimmed : ¬ ∀ (bytes : Bytes) (f : Ethernet) (inPort : UInt32),
    Ethernet.decode bytes = .ok f →
      (ofFrame f inPort).toFlowMatch = (FlowMatch.ofFrame f inPort).map FlowKey.trimmed ∧
      (f.etherType ≠ EtherType.ipv4 → ∀ key, FlowKey.ipv4 key ∉ (ofFrame f inPort).toFlowMatch) := by
  intro h
  have hback := toFlowMatch_ofFrame (f := taggedRequest) rfl 1
  refine (h taggedQuestion taggedRequest 1 taggedQuestion_read).2 (by decide)
    ⟨⟨10, 0, 0, 1⟩, ⟨10, 0, 0, 2⟩, 1, 0, 0, .none⟩ ?_
  rw [hback]
  decide

end WildcardMatch

end Vswitch
