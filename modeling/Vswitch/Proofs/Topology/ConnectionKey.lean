import Mathlib
import Vswitch.Topology.Context

/-!
# Connections and their names

A device tracks the connections over IPv4 whose ends are fully known, and names them in a cache by text:
the two ends, the protocol and the device between bars. No part has a bar in it, and each part is told
apart by its text, so different connections never share a name.

* `Uuid.ofText?_text`: identifiers are read back from their text;
* `ConnectionKey.text_injective`: connections are told apart by their names;
* `ConnectionKey.Describes`, `ConnectionKey.ofMatch?_eq_some_iff`: which packets belong to a connection.
-/

namespace Vswitch

/-! ## Text between separators -/

section Separators

variable {separator c : Char} {parts others : List String}

/-- A character of no part, other than the separator, is not in the joined text. -/
theorem not_mem_intercalate (hc : c ≠ separator) {ls : List (List Char)} (hls : ∀ l ∈ ls, c ∉ l) :
    c ∉ [separator].intercalate ls := by
  induction ls with
  | nil => exact List.not_mem_nil
  | cons l rest ih =>
    have hrest : c ∉ [separator].intercalate rest :=
      ih fun other hother => hls other (List.mem_cons_of_mem l hother)
    have hl : c ∉ l := hls l List.mem_cons_self
    cases rest with
    | nil => rwa [List.intercalate_singleton]
    | cons next rest =>
      rw [List.intercalate_cons_cons, List.mem_append, List.mem_append, List.mem_singleton]
      rintro ((hmem | hmem) | hmem)
      · exact hl hmem
      · exact hc hmem
      · exact hrest hmem

/-- Parts in which the separator does not occur are told apart by their text between separators. -/
theorem parts_eq_of_intercalate (hne : parts ≠ []) (hne' : others ≠ [])
    (hparts : ∀ part ∈ parts, separator ∉ part.toList)
    (hothers : ∀ part ∈ others, separator ∉ part.toList)
    (h : String.intercalate (String.ofList [separator]) parts =
      String.intercalate (String.ofList [separator]) others) : parts = others := by
  have hsplit : ∀ strings : List String, strings ≠ [] →
      (∀ part ∈ strings, separator ∉ part.toList) →
      (String.intercalate (String.ofList [separator]) strings).toList.splitOn separator =
        strings.map String.toList := by
    intro strings hnonempty hclear
    rw [String.toList_intercalate, String.toList_ofList]
    refine List.splitOn_intercalate separator ?_ (mt List.map_eq_nil_iff.mp hnonempty)
    intro l hl
    obtain ⟨part, hpart, rfl⟩ := List.mem_map.mp hl
    exact hclear part hpart
  have hlists : parts.map String.toList = others.map String.toList := by
    rw [← hsplit parts hne hparts, h, hsplit others hne' hothers]
  exact List.map_injective_iff.mpr (fun _ _ => String.toList_inj.mp) hlists

end Separators

/-! ## Numbers and addresses -/

/-- A decimal has digits only. -/
theorem not_mem_repr {c : Char} (hc : c.isDigit = false) (n : Nat) : c ∉ n.repr.toList := by
  intro hmem
  rw [Nat.toList_repr] at hmem
  have hdigit : c.isDigit = true :=
    Nat.isDigit_of_mem_toDigits (by decide) (Nat.le_refl 10) hmem
  rw [hc] at hdigit
  contradiction

namespace Ipv4Addr

/-- An address has digits and dots only. -/
theorem not_mem_text {c : Char} (hc : c.isDigit = false) (hdot : c ≠ '.') (ip : Ipv4Addr) :
    c ∉ ip.text.toList := by
  have hseparator : ".".toList = ['.'] := rfl
  rw [text, String.toList_intercalate, hseparator, List.map_map]
  refine not_mem_intercalate hdot ?_
  intro l hl
  obtain ⟨o, -, rfl⟩ := List.mem_map.mp hl
  exact not_mem_repr hc o.toNat

/-- Addresses are told apart by their text: the dots say where each octet ends. -/
theorem text_injective {ip other : Ipv4Addr} (h : ip.text = other.text) : ip = other := by
  have hclear (address : Ipv4Addr) :
      ∀ part ∈ address.octets.map fun o => o.toNat.repr, '.' ∉ part.toList := by
    intro part hpart
    obtain ⟨o, -, rfl⟩ := List.mem_map.mp hpart
    exact not_mem_repr rfl o.toNat
  have hparts := parts_eq_of_intercalate (List.cons_ne_nil _ _) (List.cons_ne_nil _ _)
    (hclear ip) (hclear other) h
  have hinjective : Function.Injective fun o : UInt8 => o.toNat.repr := by
    intro o o' heq
    exact UInt8.toNat_inj.mp (Nat.repr_inj.mp heq)
  have hoctets : ip.octets = other.octets := List.map_injective_iff.mpr hinjective hparts
  rw [← ofBytes_octets ip [], ← ofBytes_octets other [], hoctets]

end Ipv4Addr

/-! ## Identifiers -/

namespace Hex

/-- The digits of a number in two runs, the second one of a given width. -/
theorem digits_append (front width n : Nat) :
    digits (front + width) n = digits front (n / capacity width) ++ digits width n := by
  induction width generalizing n with
  | zero => rw [capacity, Nat.div_one, digits, List.append_nil, Nat.add_zero]
  | succ width ih =>
    rw [← Nat.add_assoc, digits, digits, ih, capacity, Nat.div_div_eq_div_mul, List.append_assoc]

/-- The digits tell nothing of what they cannot spell. -/
theorem digits_mod (width n : Nat) : digits width (n % capacity width) = digits width n := by
  induction width generalizing n with
  | zero => rfl
  | succ width ih =>
    have hquotient : n % (16 * capacity width) / 16 = n / 16 % capacity width :=
      Nat.mod_mul_right_div_self n 16 (capacity width)
    have hremainder : n % (16 * capacity width) % 16 = n % 16 :=
      Nat.mod_mul_right_mod n 16 (capacity width)
    rw [digits, digits, capacity, hquotient, hremainder, ih]

/-- All characters of a hexadecimal are hexadecimal digits. -/
theorem exists_of_mem_digits {c : Char} {width n : Nat} (h : c ∈ digits width n) :
    ∃ k : Fin 16, c = digit k := by
  induction width generalizing n with
  | zero => contradiction
  | succ width ih =>
    rw [digits, List.mem_append, List.mem_singleton] at h
    rcases h with hfront | hlast
    · exact ih hfront
    · exact ⟨⟨n % 16, Nat.mod_lt n (by decide)⟩, hlast⟩

/-- What is no digit does not occur in one. -/
theorem not_mem_digits {c : Char} (hc : ∀ k : Fin 16, c ≠ digit k) (width n : Nat) :
    c ∉ digits width n := by
  intro hmem
  obtain ⟨k, hk⟩ := exists_of_mem_digits hmem
  exact hc k hk

end Hex

namespace Uuid

/-- Two halves that were cut into runs are whole again without the hyphens. -/
theorem filter_hyphenated {high low : List Char} (hhigh : '-' ∉ high) (hlow : '-' ∉ low) :
    (high.take 8 ++ '-' :: ((high.drop 8).take 4) ++ '-' :: high.drop 12 ++ '-' :: low.take 4
      ++ '-' :: low.drop 4).filter (· != '-') = high ++ low := by
  have hkept : ∀ l : List Char, '-' ∉ l → l.filter (· != '-') = l := by
    intro l hl
    rw [List.filter_eq_self]
    intro c hc
    have hne : c ≠ '-' := fun heq => hl (heq ▸ hc)
    exact bne_iff_ne.mpr hne
  have htake {l : List Char} (hl : '-' ∉ l) (k : Nat) : '-' ∉ l.take k :=
    fun hmem => hl (List.mem_of_mem_take hmem)
  have hdrop {l : List Char} (hl : '-' ∉ l) (k : Nat) : '-' ∉ l.drop k :=
    fun hmem => hl (List.mem_of_mem_drop hmem)
  have hcons (l : List Char) : ('-' :: l).filter (· != '-') = l.filter (· != '-') :=
    List.filter_cons_of_neg (by decide)
  rw [List.filter_append, List.filter_append, List.filter_append, List.filter_append, hcons, hcons,
    hcons, hcons, hkept _ (htake hhigh 8), hkept _ (htake (hdrop hhigh 8) 4),
    hkept _ (hdrop hhigh 12), hkept _ (htake hlow 4), hkept _ (hdrop hlow 4)]
  -- the runs between the hyphens make up the two halves again
  have hrest : high.drop 12 = (high.drop 8).drop 4 := by rw [List.drop_drop]
  rw [hrest, List.append_assoc (high.take 8), List.take_append_drop, List.take_append_drop,
    List.append_assoc, List.take_append_drop]

/-- Without the hyphens, the text of an identifier is the digits of its two halves. -/
theorem filter_text (u : Uuid) : u.text.toList.filter (· != '-') =
    Hex.digits 16 u.high.toNat ++ Hex.digits 16 u.low.toNat := by
  have hclear (n : Nat) : '-' ∉ Hex.digits 16 n := Hex.not_mem_digits (by decide) 16 n
  rw [text, String.toList_ofList]
  exact filter_hyphenated (hclear _) (hclear _)

/-- An identifier has hyphens and hexadecimal digits only. -/
theorem mem_text {c : Char} {u : Uuid} (h : c ∈ u.text.toList) :
    c = '-' ∨ c ∈ Hex.digits 16 u.high.toNat ∨ c ∈ Hex.digits 16 u.low.toNat := by
  by_cases hc : c = '-'
  · exact Or.inl hc
  · right
    have hkept : c ∈ u.text.toList.filter (· != '-') :=
      List.mem_filter.mpr ⟨h, bne_iff_ne.mpr hc⟩
    rw [filter_text] at hkept
    exact List.mem_append.mp hkept

/-- An identifier is read back from its text. -/
theorem ofText?_text (u : Uuid) : ofText? u.text = some u := by
  have hhigh : u.high.toNat < 2 ^ 64 := u.high.toNat_lt
  have hlow : u.low.toNat < 2 ^ 64 := u.low.toNat_lt
  -- the digits of the halves are those of one number of twice the width
  generalize hn : u.high.toNat * 2 ^ 64 + u.low.toNat = n
  have hquotient : n / 2 ^ 64 = u.high.toNat := by omega
  have hremainder : n % 2 ^ 64 = u.low.toNat := by omega
  have hdigits : Hex.digits 16 u.high.toNat ++ Hex.digits 16 u.low.toNat = Hex.digits 32 n := by
    have hcapacity : Hex.capacity 16 = 2 ^ 64 := rfl
    rw [Hex.digits_append 16 16 n, ← Hex.digits_mod 16 n, hcapacity, hquotient, hremainder]
  have hfilter : u.text.toList.filter (· != '-') = Hex.digits 32 n := by
    rw [filter_text, hdigits]
  have hread : Hex.ofDigits? (Hex.digits 32 n) = some n := by
    have hcapacity : Hex.capacity 32 = 2 ^ 128 := rfl
    rw [Hex.ofDigits?_digits, hcapacity, Nat.mod_eq_of_lt (by omega)]
  have hhighWord : UInt64.ofNat (n / UInt64.size) = u.high := by
    show UInt64.ofNat (n / 2 ^ 64) = u.high
    rw [hquotient, UInt64.ofNat_toNat]
  have hlowWord : UInt64.ofNat n = u.low := by
    rw [← UInt64.toNat_inj, UInt64.toNat_ofNat', hremainder]
  unfold ofText?
  simp only [hfilter, Hex.length_digits, if_true, hread, Option.map_some, hhighWord, hlowWord]

/-- Identifiers are told apart by their text. -/
theorem text_injective {u other : Uuid} (h : u.text = other.text) : u = other := by
  have hread : some u = some other := by rw [← ofText?_text u, h, ofText?_text other]
  exact Option.some.inj hread

end Uuid

/-! ## Names of connections -/

namespace ConnectionKey

/-- The opposite of the opposite direction is the direction. -/
theorem reversed_reversed (k : ConnectionKey) : k.reversed.reversed = k := rfl

/-- The six parts of a name. -/
def parts (k : ConnectionKey) : List String :=
  [k.source.text, k.sourcePort.toNat.repr, k.destination.text, k.destinationPort.toNat.repr,
    k.protocol.toNat.repr, k.device.text]

/-- No part of a key has the separator in it. -/
theorem not_mem_parts (k : ConnectionKey) : ∀ part ∈ k.parts, '|' ∉ part.toList := by
  have hnumber (n : Nat) : '|' ∉ n.repr.toList := not_mem_repr rfl n
  have haddress (ip : Ipv4Addr) : '|' ∉ ip.text.toList := ip.not_mem_text rfl (by decide)
  have hdevice : '|' ∉ k.device.text.toList := by
    have hdigits (n : Nat) : '|' ∉ Hex.digits 16 n := Hex.not_mem_digits (by decide) 16 n
    intro hmem
    rcases Uuid.mem_text hmem with hhyphen | hhigh | hlow
    · exact absurd hhyphen (by decide)
    · exact hdigits _ hhigh
    · exact hdigits _ hlow
  intro part hpart
  simp only [parts, List.mem_cons, List.not_mem_nil, or_false] at hpart
  rcases hpart with rfl | rfl | rfl | rfl | rfl | rfl
  · exact haddress _
  · exact hnumber _
  · exact haddress _
  · exact hnumber _
  · exact hnumber _
  · exact hdevice

/-- Different connections have different names, whatever their ends and devices are. -/
theorem text_injective {k other : ConnectionKey} (h : k.text = other.text) : k = other := by
  have hparts : k.parts = other.parts :=
    parts_eq_of_intercalate (List.cons_ne_nil _ _) (List.cons_ne_nil _ _) k.not_mem_parts
      other.not_mem_parts h
  simp only [parts, List.cons.injEq, and_true] at hparts
  obtain ⟨hsource, hsourcePort, hdestination, hdestinationPort, hprotocol, hdevice⟩ := hparts
  cases k
  cases other
  rw [mk.injEq]
  exact ⟨Ipv4Addr.text_injective hsource, UInt16.toNat_inj.mp (Nat.repr_inj.mp hsourcePort),
    Ipv4Addr.text_injective hdestination, UInt16.toNat_inj.mp (Nat.repr_inj.mp hdestinationPort),
    UInt8.toNat_inj.mp (Nat.repr_inj.mp hprotocol), Uuid.text_injective hdevice⟩

/-! ## Packets of a connection -/

/-- A packet belongs to a tracked connection: it is TCP or UDP over IPv4, and both addresses and both
ports are known. -/
structure Describes (k : ConnectionKey) (m : WildcardMatch) : Prop where
  etherType : m.get? .etherType = some EtherType.ipv4
  protocol : m.get? .networkProtocol = some k.protocol
  tracked : k.protocol = IpProtocol.tcp ∨ k.protocol = IpProtocol.udp
  source : m.get? .networkSource = some k.source
  sourcePort : m.get? .transportSource = some k.sourcePort
  destination : m.get? .networkDestination = some k.destination
  destinationPort : m.get? .transportDestination = some k.destinationPort

/-- A device takes a packet for one of the connection that it belongs to. -/
theorem ofMatch?_eq_some_iff {m : WildcardMatch} {device : Uuid} {k : ConnectionKey} :
    ofMatch? m device = some k ↔ k.Describes m ∧ k.device = device := by
  constructor
  · intro h
    simp only [ofMatch?, Option.bind_eq_bind] at h
    obtain ⟨type, htype, h⟩ := Option.bind_eq_some_iff.mp h
    obtain ⟨protocol, hprotocol, h⟩ := Option.bind_eq_some_iff.mp h
    by_cases htracked :
        type = EtherType.ipv4 ∧ (protocol = IpProtocol.tcp ∨ protocol = IpProtocol.udp)
    · rw [if_pos htracked] at h
      obtain ⟨source, hsource, h⟩ := Option.bind_eq_some_iff.mp h
      obtain ⟨sourcePort, hsourcePort, h⟩ := Option.bind_eq_some_iff.mp h
      obtain ⟨destination, hdestination, h⟩ := Option.bind_eq_some_iff.mp h
      obtain ⟨destinationPort, hdestinationPort, h⟩ := Option.bind_eq_some_iff.mp h
      obtain rfl := Option.some.inj h
      obtain ⟨rfl, htracked⟩ := htracked
      exact ⟨⟨htype, hprotocol, htracked, hsource, hsourcePort, hdestination, hdestinationPort⟩,
        rfl⟩
    · rw [if_neg htracked] at h
      contradiction
  · rintro ⟨h, rfl⟩
    unfold ofMatch?
    rw [h.etherType, h.protocol, h.source, h.sourcePort, h.destination, h.destinationPort]
    exact if_pos ⟨rfl, h.tracked⟩

end ConnectionKey

end Vswitch
