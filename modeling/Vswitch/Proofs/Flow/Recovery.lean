import Mathlib
import Vswitch.Proofs.Flow.Conversion

/-!
# From a partial match to exact keys and back

The fields of a partial match are bundled into keys, and no two of these keys carry the same field. A
field that is set is therefore what it was once the match is made from the keys again. Two things can go
wrong. The key of a tag holds twelve bits of the identifier, and no match that can be built has more
(`Built.vlanInRange`). The keys of ports are those of three protocols: under any other the ports are left
out, and under ICMP they stand for a type and a code, which are octets.

* `WildcardMatch.Built`: the matches that can be built;
* `WildcardMatch.nodup_fieldsOf_toFlowMatch`: no two keys of a match carry the same field;
* `WildcardMatch.Spells`, `WildcardMatch.get?_of_spells`: a field that a key carries comes back;
* `WildcardMatch.fields_come_back`: which fields come back, and which are lost;
* `WildcardMatch.not_forall_come_back`: a port is lost with a protocol that has no key.
-/

namespace Vswitch

/-- The port that a value is, if the field is one of the transport layer. -/
def Field.port? : (f : Field) → f.Value → Option UInt16
  | .transportSource, port => some port
  | .transportDestination, port => some port
  | _, _ => none

namespace WildcardMatch

variable {m m' : WildcardMatch} {f : Field}

/-! ## Matches that can be built -/

/-- The matches that the operations build from nothing and from keys. -/
inductive Built : WildcardMatch → Prop
  | empty : Built empty
  | ofFlowMatch (keys : FlowMatch) : Built (ofFlowMatch keys)
  | set {m m' : WildcardMatch} (h : Built m) (f : Field) (raw : f.Raw) (hset : m.set f raw = .ok m') :
      Built m'
  | unset {m : WildcardMatch} (h : Built m) (f : Field) : Built (m.unset f)
  | project {m : WildcardMatch} (h : Built m) (fields : FieldSet) : Built (m.project fields)

/-- A field is set to the value its check accepts. -/
theorem exists_of_set {raw : f.Raw} (h : m.set f raw = .ok m') :
    ∃ value, f.accept raw = .ok value ∧ m' = m.put f value := by
  rw [WildcardMatch.set] at h
  cases haccept : f.accept raw with
  | error reason =>
    rw [haccept] at h
    cases h
  | ok value =>
    rw [haccept] at h
    cases h
    exact ⟨value, rfl, rfl⟩

/-- Whether an identifier of a tag, if there is one, is within its range. -/
def VlanInRange (v : FieldValues) : Prop := ∀ id : UInt16, v .vlanId = some id → id ≤ Field.maxVlanId

/-- Updating with a tag in range, or with another field, keeps the range. -/
theorem vlanInRange_update {v : FieldValues} (hv : VlanInRange v) (u : FieldUpdate)
    (h : ∀ id : UInt16, u = ⟨.vlanId, some id⟩ → id ≤ Field.maxVlanId) :
    VlanInRange (v.update u.field u.value) := by
  rcases u with ⟨f, value⟩
  intro id hid
  by_cases hf : f = .vlanId
  · subst hf
    rw [FieldValues.update_self] at hid
    exact h id (congrArg (FieldUpdate.mk .vlanId) hid)
  · rw [FieldValues.update_ne v value (Ne.symm hf)] at hid
    exact hv id hid

/-- The check accepts no tag beyond its range. -/
theorem accept_vlanId_le {raw id : UInt16} (h : Field.vlanId.accept raw = .ok id) :
    id ≤ Field.maxVlanId := by
  have haccept : Field.acceptVlanId raw = .ok id := h
  rw [Field.acceptVlanId] at haccept
  split_ifs at haccept with hover
  cases haccept
  exact UInt16.not_lt.mp hover

/-- Twelve bits of a word are in range. -/
theorem and_maxVlanId_le (word : UInt16) : word &&& Field.maxVlanId ≤ Field.maxVlanId := by
  rw [UInt16.le_iff_toNat_le, UInt16.toNat_and]
  exact Nat.and_le_right

/-- A key carries no more of a tag than twelve bits. -/
theorem vlanId_le_of_mem {key : FlowKey} {id : UInt16}
    (h : FieldUpdate.mk .vlanId (some id) ∈ fieldsOfKey key) : id ≤ Field.maxVlanId := by
  cases key with
  | vlan word =>
    rw [fieldsOfKey] at h
    split_ifs at h
    · cases h
    · cases List.mem_singleton.mp h
      exact and_maxVlanId_le word
  | tunnel key =>
    simp only [fieldsOfKey, List.mem_cons, List.not_mem_nil, or_false] at h
    rcases h with h | h | h <;> cases h
  | _ => simp [fieldsOfKey, FieldUpdate.some] at h

/-- A list of updates with tags in range keeps it too. -/
theorem vlanInRange_foldl {updates : List FieldUpdate}
    (h : ∀ id : UInt16, FieldUpdate.mk .vlanId (some id) ∈ updates → id ≤ Field.maxVlanId)
    {v : FieldValues} (hv : VlanInRange v) :
    VlanInRange (updates.foldl (fun v u => v.update u.field u.value) v) := by
  induction updates generalizing v with
  | nil => exact hv
  | cons u rest ih =>
    rw [List.foldl_cons]
    apply ih
    · intro id hid
      exact h id (List.mem_cons_of_mem _ hid)
    · apply vlanInRange_update hv
      rintro id rfl
      exact h id List.mem_cons_self

/-- However a match is built, its tag is in range. -/
theorem Built.vlanInRange (h : Built m) : VlanInRange m.values := by
  have hopen : VlanInRange FieldValues.empty := by
    intro id hid
    cases hid
  -- keys and callers hand in identifiers within the range, and nothing else writes any
  induction h with
  | empty => exact hopen
  | ofFlowMatch keys =>
    apply vlanInRange_foldl ?_ hopen
    intro id hid
    obtain ⟨key, -, hcarried⟩ := List.mem_flatMap.mp hid
    exact vlanId_le_of_mem hcarried
  | set h f raw hset ih =>
    obtain ⟨value, haccept, rfl⟩ := exists_of_set hset
    apply vlanInRange_update ih ⟨f, some value⟩
    intro id heq
    cases heq
    exact accept_vlanId_le haccept
  | unset h f ih =>
    apply vlanInRange_update ih ⟨f, none⟩
    intro id heq
    cases heq
  | @project m h fields ih =>
    intro id hid
    have hrestricted : (m.values.restrict fields) .vlanId = some id := hid
    rw [FieldValues.restrict, FieldValues.get_ofFn] at hrestricted
    split_ifs at hrestricted
    exact ih id hrestricted

/-! ## Keys of a match -/

/-- The fields that the keys of a match can carry. -/
def keyedFields : List Field :=
  [.inputPort, .tunnelId, .tunnelSource, .tunnelDestination, .ethernetSource, .ethernetDestination,
    .vlanId, .etherType] ++ upperFields

/-- The word of a tag that is there is marked and holds the identifier. -/
theorem fieldsOfKey_vlan (id : UInt16) :
    fieldsOfKey (.vlan (FlowKey.vlanPresent ||| id)) =
      [.some .vlanId ((FlowKey.vlanPresent ||| id) &&& Field.maxVlanId)] := by
  rw [UInt16.or_comm]
  exact fieldsOfKey_marked id

/-- The bit that says there is a tag does not touch the tag. -/
theorem vlanId_of_word {id : UInt16} (h : id ≤ Field.maxVlanId) :
    (FlowKey.vlanPresent ||| id) &&& Field.maxVlanId = id := by
  have hbound : id.toNat < 2 ^ 12 := by
    have hle := UInt16.le_iff_toNat_le.mp h
    rw [show Field.maxVlanId.toNat = 4095 from rfl] at hle
    omega
  apply UInt16.toNat_inj.mp
  rw [UInt16.toNat_and, UInt16.toNat_or, show Field.maxVlanId.toNat = 2 ^ 12 - 1 from rfl,
    Nat.and_two_pow_sub_one_eq_mod, Nat.or_mod_two_pow, Nat.mod_eq_of_lt hbound,
    show FlowKey.vlanPresent.toNat % 2 ^ 12 = 0 from rfl, Nat.zero_or]

/-- A key that is there only if its field is set. -/
theorem fieldsOf_optional {α : Type} {key : α → FlowKey} {f : Field}
    (h : ∀ a, fieldsOf [key a] = [f]) (value : Option α) :
    (fieldsOf (value.map key).toList).Sublist [f] := by
  cases value with
  | none => exact List.nil_sublist _
  | some a =>
    rw [Option.map_some, Option.toList_some, h]

/-- A key that is there only if one of its fields is set. -/
theorem fieldsOf_conditional (c : Bool) (key : FlowKey) :
    (fieldsOf (if c then [key] else [])).Sublist (fieldsOf [key]) := by
  cases c with
  | false => exact List.nil_sublist _
  | true => exact .refl _

/-- The transport keys carry at most the two ports. -/
theorem fieldsOf_portKeys (m : WildcardMatch) :
    (fieldsOf m.transportKeys).Sublist [.transportSource, .transportDestination] := by
  rw [transportKeys]
  split_ifs
  · dsimp only
    split
    · exact List.nil_sublist _
    · split_ifs
      · exact .refl _
      · exact .refl _
      · exact .refl _
      · exact List.nil_sublist _
  · exact List.nil_sublist _

/-- The front keys carry each of their fields once. -/
theorem fieldsOf_frontKeys (m : WildcardMatch) :
    (fieldsOf m.frontKeys).Sublist [.inputPort, .tunnelId, .tunnelSource, .tunnelDestination,
      .ethernetSource, .ethernetDestination, .vlanId, .etherType] := by
  have hport := fieldsOf_optional (fun port => rfl : ∀ port, fieldsOf [.inPort port] = [.inputPort])
    (m.get? .inputPort)
  have htunnel : (fieldsOf m.tunnelKeys).Sublist [.tunnelId, .tunnelSource, .tunnelDestination] :=
    fieldsOf_conditional _ _
  have hethernet : (fieldsOf m.ethernetKeys).Sublist [.ethernetSource, .ethernetDestination] :=
    fieldsOf_conditional _ _
  have htag : (fieldsOf ((m.get? .vlanId).map fun (id : UInt16) =>
      FlowKey.vlan (FlowKey.vlanPresent ||| id)).toList).Sublist [.vlanId] := by
    refine fieldsOf_optional ?_ _
    intro id
    rw [fieldsOf, List.flatMap_singleton, fieldsOfKey_vlan]
    rfl
  have htype := fieldsOf_optional
    (fun type => rfl : ∀ type, fieldsOf [.etherType type] = [.etherType]) (m.get? .etherType)
  rw [frontKeys, fieldsOf_append, fieldsOf_append, fieldsOf_append, fieldsOf_append]
  exact (((hport.append htunnel).append hethernet).append htag).append htype

/-- So do the network keys. -/
theorem fieldsOf_networkKeys (m : WildcardMatch) :
    (fieldsOf m.networkKeys).Sublist [.networkSource, .networkDestination, .networkProtocol,
      .networkTos, .networkTtl, .fragmentType] :=
  fieldsOf_conditional _ _

/-- No two keys of a match carry the same field. -/
theorem nodup_fieldsOf_toFlowMatch (m : WildcardMatch) : (fieldsOf m.toFlowMatch).Nodup := by
  rw [toFlowMatch_eq, fieldsOf_append, fieldsOf_append]
  have hall : keyedFields.Nodup := by decide
  exact hall.sublist (((fieldsOf_frontKeys m).append (fieldsOf_networkKeys m)).append
    (fieldsOf_portKeys m))

/-! ## Fields that come back -/

/-- The keys of the match say that its field `f` is `value`. -/
def Spells (m : WildcardMatch) (f : Field) (value : f.Value) : Prop :=
  ∃ key ∈ m.toFlowMatch, FieldUpdate.some f value ∈ fieldsOfKey key

/-- What the keys say of a field comes back. -/
theorem get?_of_spells {value : f.Value} (h : m.Spells f value) :
    (ofFlowMatch m.toFlowMatch).get? f = some value := by
  obtain ⟨key, hkey, hcarried⟩ := h
  exact has_ofFlowMatch (nodup_fieldsOf_toFlowMatch m) hkey _ hcarried

/-- A key in any of the three parts is a key of the match. -/
theorem spells_of_mem {value : f.Value} (key : FlowKey)
    (hkey : key ∈ m.frontKeys ∨ key ∈ m.networkKeys ∨ key ∈ m.transportKeys)
    (hcarried : FieldUpdate.some f value ∈ fieldsOfKey key) : m.Spells f value := by
  refine ⟨key, ?_, hcarried⟩
  rw [toFlowMatch_eq, List.mem_append, List.mem_append, or_assoc]
  exact hkey

/-- A default stands in for open fields only. -/
theorem valueOr_of_get? {value : f.Value} (h : m.get? f = some value) (default : f.Value) :
    m.valueOr f default = value := by
  rw [valueOr, h, Option.getD_some]

/-- A bundle has the value of a field that is set, whatever it has for fields that are open. -/
theorem mem_of_valueOr {value : f.Value} {key : FlowKey} (h : m.get? f = some value)
    (default : f.Value) (hcarried : FieldUpdate.some f (m.valueOr f default) ∈ fieldsOfKey key) :
    FieldUpdate.some f value ∈ fieldsOfKey key := by
  rwa [valueOr_of_get? h] at hcarried

section Bundles

variable {value : f.Value}

/-- A tunnel field that is set has the tunnel key to carry it. -/
theorem spells_tunnel (hf : f ∈ [Field.tunnelId, .tunnelSource, .tunnelDestination])
    (h : m.get? f = some value) : m.Spells f value := by
  have hset := setsAny_of_mem hf h
  apply spells_of_mem (.tunnel ⟨m.get? .tunnelId, m.get? .tunnelSource, m.get? .tunnelDestination,
    none, none, false, false⟩)
  · simp [frontKeys, tunnelKeys, hset]
  · simp only [List.mem_cons, List.not_mem_nil, or_false] at hf
    rcases hf with rfl | rfl | rfl <;> simp [fieldsOfKey, FieldUpdate.some, h]

/-- An address has the link key. -/
theorem spells_ethernet (hf : f ∈ [Field.ethernetSource, .ethernetDestination])
    (h : m.get? f = some value) : m.Spells f value := by
  have hset := setsAny_of_mem hf h
  apply spells_of_mem (.ethernet (m.valueOr .ethernetSource MacAddr.zero)
    (m.valueOr .ethernetDestination MacAddr.zero))
  · simp [frontKeys, ethernetKeys, hset]
  · simp only [List.mem_cons, List.not_mem_nil, or_false] at hf
    rcases hf with rfl | rfl
    · exact mem_of_valueOr h MacAddr.zero (by simp [fieldsOfKey])
    · exact mem_of_valueOr h MacAddr.zero (by simp [fieldsOfKey])

/-- A network field has the IPv4 key. -/
theorem spells_network (hf : f ∈ [Field.networkSource, .networkDestination, .networkProtocol,
    .networkTtl, .networkTos, .fragmentType]) (h : m.get? f = some value) : m.Spells f value := by
  have hset : m.setsAny networkFields = true := setsAny_of_mem hf h
  apply spells_of_mem (.ipv4 ⟨m.valueOr .networkSource Ipv4Addr.unspecified,
      m.valueOr .networkDestination Ipv4Addr.unspecified,
      m.valueOr .networkProtocol (0 : UInt8), m.valueOr .networkTos (0 : UInt8),
      m.valueOr .networkTtl (0 : UInt8), m.valueOr .fragmentType FragmentType.none⟩)
  · simp [networkKeys, hset]
  · simp only [List.mem_cons, List.not_mem_nil, or_false] at hf
    rcases hf with rfl | rfl | rfl | rfl | rfl | rfl
    · exact mem_of_valueOr h Ipv4Addr.unspecified (by simp [fieldsOfKey])
    · exact mem_of_valueOr h Ipv4Addr.unspecified (by simp [fieldsOfKey])
    · exact mem_of_valueOr h (0 : UInt8) (by simp [fieldsOfKey])
    · exact mem_of_valueOr h (0 : UInt8) (by simp [fieldsOfKey])
    · exact mem_of_valueOr h (0 : UInt8) (by simp [fieldsOfKey])
    · exact mem_of_valueOr h FragmentType.none (by simp [fieldsOfKey])

/-- An identifier within its range is what the word of its tag holds. -/
theorem spells_vlanId {id : UInt16} (h : m.get? .vlanId = some id) (hrange : id ≤ Field.maxVlanId) :
    m.Spells .vlanId id := by
  have hkey : FlowKey.vlan (FlowKey.vlanPresent ||| id) ∈
      ((m.get? .vlanId).map fun (id : UInt16) => FlowKey.vlan (FlowKey.vlanPresent ||| id)).toList := by
    rw [h]
    exact List.mem_cons_self
  apply spells_of_mem (.vlan (FlowKey.vlanPresent ||| id))
  · exact Or.inl (List.mem_append_left _ (List.mem_append_right _ hkey))
  · rw [fieldsOfKey_vlan, vlanId_of_word hrange]
    exact List.mem_cons_self

end Bundles

/-- All fields but the ports have a key, whatever the other fields are. -/
theorem spells_of_get? (hvlan : VlanInRange m.values) {value : f.Value} (h : m.get? f = some value)
    (hport : f.port? value = none) : m.Spells f value := by
  -- one key for each bundle of fields
  cases f with
  | inputPort =>
    refine spells_of_mem (.inPort value) ?_ List.mem_cons_self
    simp [frontKeys, h]
  | tunnelId | tunnelSource | tunnelDestination => exact spells_tunnel (by decide) h
  | ethernetSource | ethernetDestination => exact spells_ethernet (by decide) h
  | etherType =>
    refine spells_of_mem (.etherType value) ?_ List.mem_cons_self
    simp [frontKeys, h]
  | vlanId => exact spells_vlanId h (hvlan value h)
  | networkSource | networkDestination | networkProtocol | networkTtl | networkTos | fragmentType =>
    exact spells_network (by decide) h
  | transportSource | transportDestination => cases hport

/-! ## Ports -/

section Ports

variable {value : f.Value} {port : UInt16} {protocol : UInt8}

/-- A port that is set makes for a transport key. -/
theorem setsAny_of_port (hport : f.port? value = some port) (h : m.get? f = some value) :
    m.setsAny (.ofList [.transportSource, .transportDestination]) = true := by
  cases f with
  | transportSource | transportDestination => exact setsAny_of_mem (by decide) h
  | _ => cases hport

/-- The protocol decides which one, and a protocol without ports has none. -/
theorem transportKeys_of_protocol
    (hset : m.setsAny (.ofList [.transportSource, .transportDestination]) = true)
    (hprotocol : m.get? .networkProtocol = some protocol) :
    m.transportKeys =
      if protocol = IpProtocol.tcp then
        [.tcp (m.valueOr .transportSource (0 : UInt16)) (m.valueOr .transportDestination (0 : UInt16))]
      else if protocol = IpProtocol.udp then
        [.udp (m.valueOr .transportSource (0 : UInt16)) (m.valueOr .transportDestination (0 : UInt16))]
      else if protocol = IpProtocol.icmp then
        [.icmp (UInt16.toUInt8 (m.valueOr .transportSource (0 : UInt16)))
          (UInt16.toUInt8 (m.valueOr .transportDestination (0 : UInt16)))]
      else [] := by
  simp only [transportKeys, hset, if_true, hprotocol]

/-- A protocol with ports has a key that carries both. -/
theorem spells_port (hport : f.port? value = some port) (h : m.get? f = some value)
    (hprotocol : m.get? .networkProtocol = some IpProtocol.tcp ∨
      m.get? .networkProtocol = some IpProtocol.udp) : m.Spells f value := by
  have hset := setsAny_of_port hport h
  -- a port that is open comes with the other as zero
  have hports : ∃ key ∈ m.transportKeys, fieldsOfKey key =
      [.some .transportSource (m.valueOr .transportSource (0 : UInt16)),
        .some .transportDestination (m.valueOr .transportDestination (0 : UInt16))] := by
    rcases hprotocol with htcp | hudp
    · have hkeys := transportKeys_of_protocol hset htcp
      rw [if_pos rfl] at hkeys
      exact ⟨_, hkeys ▸ List.mem_cons_self, rfl⟩
    · have hkeys := transportKeys_of_protocol hset hudp
      rw [if_neg (by decide), if_pos rfl] at hkeys
      exact ⟨_, hkeys ▸ List.mem_cons_self, rfl⟩
  obtain ⟨key, hkey, hfields⟩ := hports
  apply spells_of_mem key (Or.inr (Or.inr hkey))
  cases f with
  | transportSource =>
    apply mem_of_valueOr h (0 : UInt16)
    rw [hfields]
    exact List.mem_cons_self
  | transportDestination =>
    apply mem_of_valueOr h (0 : UInt16)
    rw [hfields]
    exact List.mem_cons_of_mem _ List.mem_cons_self
  | _ => cases hport

/-- A type or a code is an octet, and so is what comes back. -/
theorem spells_octet (hport : f.port? value = some port) (h : m.get? f = some value)
    (hprotocol : m.get? .networkProtocol = some IpProtocol.icmp) (hoctet : port.toNat < 256) :
    m.Spells f value := by
  have hkeys := transportKeys_of_protocol (setsAny_of_port hport h) hprotocol
  rw [if_neg (by decide), if_neg (by decide), if_pos rfl] at hkeys
  refine spells_of_mem _ (Or.inr (Or.inr (hkeys ▸ List.mem_cons_self))) ?_
  have hsame : port.toUInt8.toUInt16 = port := by
    apply UInt16.toNat_inj.mp
    rw [UInt8.toNat_toUInt16, UInt16.toNat_toUInt8]
    exact Nat.mod_eq_of_lt hoctet
  cases f with
  | transportSource =>
    obtain rfl : value = port := Option.some.inj hport
    have hvalue : m.valueOr .transportSource (0 : UInt16) = value := valueOr_of_get? h _
    rw [fieldsOfKey, hvalue, hsame]
    exact List.mem_cons_self
  | transportDestination =>
    obtain rfl : value = port := Option.some.inj hport
    have hvalue : m.valueOr .transportDestination (0 : UInt16) = value := valueOr_of_get? h _
    rw [fieldsOfKey, hvalue, hsame]
    exact List.mem_cons_of_mem _ List.mem_cons_self
  | _ => cases hport

/-- No key carries the ports of another protocol. -/
theorem transportKeys_of_other (hprotocol : m.get? .networkProtocol = some protocol)
    (hother : ∀ known ∈ [IpProtocol.tcp, IpProtocol.udp, IpProtocol.icmp], protocol ≠ known) :
    m.transportKeys = [] := by
  rcases hset : m.setsAny (.ofList [.transportSource, .transportDestination]) with _ | _
  · rw [transportKeys, hset]
    rfl
  · rw [transportKeys_of_protocol hset hprotocol, if_neg (hother IpProtocol.tcp (by decide)),
      if_neg (hother IpProtocol.udp (by decide)), if_neg (hother IpProtocol.icmp (by decide))]

/-- Under any other protocol, or none, no key carries a port. -/
theorem open_of_port (hport : f.port? value = some port)
    (hprotocol : ∀ known ∈ [IpProtocol.tcp, IpProtocol.udp, IpProtocol.icmp],
      m.get? .networkProtocol ≠ some known) :
    (ofFlowMatch m.toFlowMatch).get? f = none := by
  have hkeys : m.transportKeys = [] := by
    cases hp : m.get? .networkProtocol with
    | none =>
      rw [transportKeys, hp]
      exact ite_self _
    | some protocol =>
      apply transportKeys_of_other hp
      intro known hknown heq
      exact hprotocol known hknown (hp.trans (congrArg some heq))
  apply get?_ofFlowMatch
  intro hf
  rw [toFlowMatch_eq, hkeys, List.append_nil, fieldsOf_append] at hf
  have hcarried := ((fieldsOf_frontKeys m).append (fieldsOf_networkKeys m)).subset hf
  cases f with
  | transportSource | transportDestination => exact absurd hcarried (by decide)
  | _ => cases hport

end Ports

/-! ## The way back -/

/-- Of a match that can be built, every field that is set comes back from its keys with its value, a port
under a protocol with ports included and a type or a code under ICMP. A port under any other protocol,
or without one, is lost. -/
theorem fields_come_back (h : Built m) {value : f.Value} (hset : m.get? f = some value) :
    (f.port? value = none → (ofFlowMatch m.toFlowMatch).get? f = some value) ∧
      ∀ port, f.port? value = some port →
        ((m.get? .networkProtocol = some IpProtocol.tcp ∨
            m.get? .networkProtocol = some IpProtocol.udp ∨
              (m.get? .networkProtocol = some IpProtocol.icmp ∧ port.toNat < 256)) →
          (ofFlowMatch m.toFlowMatch).get? f = some value) ∧
        ((∀ known ∈ [IpProtocol.tcp, IpProtocol.udp, IpProtocol.icmp],
            m.get? .networkProtocol ≠ some known) →
          (ofFlowMatch m.toFlowMatch).get? f = none) := by
  constructor
  · intro hport
    exact get?_of_spells (spells_of_get? h.vlanInRange hset hport)
  · intro port hport
    constructor
    · rintro (htcp | hudp | ⟨hicmp, hoctet⟩)
      · exact get?_of_spells (spells_port hport hset (Or.inl htcp))
      · exact get?_of_spells (spells_port hport hset (Or.inr hudp))
      · exact get?_of_spells (spells_octet hport hset hicmp hoctet)
    · intro hother
      exact open_of_port hport hother

/-- Echo requests in a VLAN: a tag's word, then two fields set by hand, and the rest left open. -/
def echoRule : WildcardMatch :=
  (((ofFlowMatch [.inPort 3, .vlan 0xb064]).put .networkProtocol IpProtocol.icmp).put .transportSource
    (8 : UInt16)).project (.ofList [.vlanId, .networkProtocol, .transportSource])

/-- The rule is set field by field. -/
theorem built_echoRule : Built echoRule := by
  apply Built.project
  have hkeys : Built (ofFlowMatch [.inPort 3, .vlan 0xb064]) := .ofFlowMatch _
  have hprotocol : Built ((ofFlowMatch [.inPort 3, .vlan 0xb064]).put .networkProtocol IpProtocol.icmp) :=
    .set hkeys .networkProtocol IpProtocol.icmp rfl
  exact .set hprotocol .transportSource (8 : UInt32) rfl

theorem fields_come_back_echoRule :
    Built echoRule ∧ echoRule.get? .vlanId = some (100 : UInt16) ∧
      echoRule.get? .transportSource = some (8 : UInt16) ∧
      (ofFlowMatch echoRule.toFlowMatch).get? .vlanId = some (100 : UInt16) ∧
      (ofFlowMatch echoRule.toFlowMatch).get? .transportSource = some (8 : UInt16) := by
  have hvlan : echoRule.get? .vlanId = some (100 : UInt16) := rfl
  have htype : echoRule.get? .transportSource = some (8 : UInt16) := rfl
  have hicmp : echoRule.get? .networkProtocol = some IpProtocol.icmp := rfl
  have hback := (fields_come_back built_echoRule htype).2 8 rfl
  exact ⟨built_echoRule, hvlan, htype, (fields_come_back built_echoRule hvlan).1 rfl,
    hback.1 (Or.inr (Or.inr ⟨hicmp, by decide⟩))⟩

/-- A port under a protocol that has ports but no key for them. -/
def streamPort : WildcardMatch :=
  (empty.put .networkProtocol (132 : UInt8)).put .transportDestination (80 : UInt16)

/-- Not all that is set comes back: this port does not. -/
theorem not_forall_come_back : ¬ ∀ m : WildcardMatch, Built m → ∀ (f : Field) (value : f.Value),
    m.get? f = some value → (ofFlowMatch m.toFlowMatch).get? f = some value := by
  intro h
  have hprotocol : Built (empty.put .networkProtocol (132 : UInt8)) :=
    .set .empty .networkProtocol (132 : UInt8) rfl
  have hbuilt : Built streamPort := .set hprotocol .transportDestination (80 : UInt32) rfl
  have hset : streamPort.get? .transportDestination = some (80 : UInt16) := rfl
  have hlost : (ofFlowMatch streamPort.toFlowMatch).get? .transportDestination = none := rfl
  have hback := h streamPort hbuilt .transportDestination (80 : UInt16) hset
  rw [hlost] at hback
  cases hback

end WildcardMatch

end Vswitch
