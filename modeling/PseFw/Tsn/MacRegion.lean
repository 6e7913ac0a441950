/-
**The addresses of the MAC region.**

The capsule script asks for the MAC addresses of the three ports, as twelve hexadecimal digits each.
It cuts an address into two numbers, the last bytes first, puts them into a template in the place of
names, and a tool stores the numbers one behind the other.  `mac_addr_init` finds a region in memory
and gives the addresses in it to the Ethernet drivers.  A driver takes an address only when its link
is down, so a link that is up is taken down before and up again afterwards.

The region the script makes lists four ports, and `mac_addr_init` does nothing for more than two:
what it finds is another region, with entries of the first one.

Main definitions:

* `Mac`, `macPositioning`, `macFile` — what is entered, the two numbers, and the file;
* `macAddrInit` — the loop over the ports, on the state of the links;
* `LinksKept` — what is wanted of the links;
* `Delivered` — an address is given to an interface.

Main results:

* `macRegion_entry` — **what is in the region for every port**;
* `linksKept_macAddrInit` — **the links, whatever the region and the drivers do**;
* `delivered_macAddrInit` — **an address arrives as it was entered**.
-/

import PseFw.Tsn.IpRegion

set_option relaxedAutoImplicit false
set_option autoImplicit false

namespace PseFw.Tsn

open Image

/-! ### The file -/

/-- `egrep "^([0-9A-F]{2}){5}[0-9A-F]{2}$"`. -/
def macAccepted (macAddress : Text) : Bool :=
  macAddress.length = 12 && macAddress.all ((upper hexDigits).contains ·)

/-- A text that is accepted as a MAC address, when its letters are capitals. -/
def Mac : Type := { t : Text // macAccepted (upper t) = true }

/-- `${mac_address:2 * k:2}`. -/
def macPos (macAddress : Text) (k : ℕ) : Text := (macAddress.drop (2 * k)).take 2

/-- `mac_positioning`: the two numbers. -/
def macPositioning (macAddress : Text) : Text × Text :=
  let pos := macPos macAddress
  (pos 3 ++ pos 2 ++ pos 1 ++ pos 0, ['0', '0', '0', '0'] ++ pos 5 ++ pos 4)

/-- The bytes of the address, in the order of the text. -/
def Mac.address (mac : Mac) : List UInt8 :=
  (List.range 6).map fun k => UInt8.ofNat (numeral 16 (macPos mac.val k))

/-- The names in `mac_template.json`, of the ports of the PCH and the PSE. -/
structure Placeholder where
  low : Text
  high : Text

/-- `pch_low_mac`, `pch_high_mac`. -/
def pchMac : Placeholder := ⟨"PCH_Gbe_Low_Mac".toList, "PCH_Gbe_High_Mac".toList⟩

/-- `pse_0_low_mac`, `pse_0_high_mac`. -/
def pse0Mac : Placeholder := ⟨"PSE_Gbe_0_Low_Mac".toList, "PSE_Gbe_0_High_Mac".toList⟩

/-- `pse_1_low_mac`, `pse_1_high_mac`. -/
def pse1Mac : Placeholder := ⟨"PSE_Gbe_1_Low_Mac".toList, "PSE_Gbe_1_High_Mac".toList⟩

/-- The values of a port. -/
def macPortFields (bdf low high : Text) : List Value := [.text bdf, .text low, .text high]

/-- `mac_template.json`. -/
def macTemplate : List Value :=
  [.number 1, .number 4] ++ macPortFields "000F4000".toList pchMac.low pchMac.high ++
    macPortFields "000E9000".toList pse0Mac.low pse0Mac.high ++
    macPortFields "000EA000".toList pse1Mac.low pse1Mac.high ++
    macPortFields "00000000".toList "AABBCCDD".toList "00001122".toList

/-- `sed -i "s/\<$name\>/$number/g"`; the names stand alone between quotes. -/
def sed (name number : Text) (file : List Value) : List Value :=
  file.map fun v => if v = .text name then .text number else v

/-- The two commands for an address. -/
def fillMac (p : Placeholder) (mac : Mac) (file : List Value) : List Value :=
  let (macLow, macHigh) := macPositioning (upper mac.val)
  sed p.high macHigh (sed p.low macLow file)

/-- The three addresses. -/
structure MacEntries where
  pch : Mac
  gbe0 : Mac
  gbe1 : Mac

/-- The file that is made from the template. -/
def macFile (c : MacEntries) : List Value :=
  fillMac pse1Mac c.gbe1 (fillMac pse0Mac c.gbe0 (fillMac pchMac c.pch macTemplate))

/-- The region. -/
def macRegion (tool : SubregionCapsule) (c : MacEntries) : Option (List UInt8) :=
  tool.storeAll (macFile c)

/-! ### The links -/

/-- What is asked of the network stack for an interface, with its answer: a link down, an address on
a link that is up or down, a link up. -/
inductive NetCall
  | down (iface : ℕ) (ok : Bool)
  | setMac (iface : ℕ) (addr : List UInt8) (isUp ok : Bool)
  | up (iface : ℕ) (ok : Bool)
  deriving DecidableEq, Repr

/-- The links, and what has been asked. -/
structure Links where
  isUp : ℕ → Bool
  calls : List NetCall

variable (P : TsnPlatform) (ok : ℕ → Bool)

/-- `net_if_down`; the number of a call decides its answer. -/
def netIfDown (iface : ℕ) (s : Links) : Bool × Links :=
  let ret := ok s.calls.length
  (ret, { isUp := if ret = true then Function.update s.isUp iface false else s.isUp
          calls := s.calls ++ [.down iface ret] })

/-- `net_if_up`. -/
def netIfUp (iface : ℕ) (s : Links) : Links :=
  let ret := ok s.calls.length
  { isUp := if ret = true then Function.update s.isUp iface true else s.isUp
    calls := s.calls ++ [.up iface ret] }

/-- `net_mgmt` with `NET_REQUEST_ETHERNET_SET_MAC_ADDRESS`. -/
def setMacAddress (iface : ℕ) (addr : List UInt8) (s : Links) : Links :=
  { s with calls := s.calls ++ [.setMac iface addr (s.isUp iface) (ok s.calls.length)] }

/-- Where `port[i]` is in `struct mac_config_data`. -/
def macOffset (i : ℕ) : ℕ := 8 + 12 * i

/-- The address of `port[i]`. -/
def macAt (region : List UInt8) (i : ℕ) : List UInt8 := slice region (macOffset i + 4) 6

/-- The interface of `port[i]`. -/
def macIface (region : List UInt8) (i : ℕ) : Option ℕ :=
  (pciport2Iface P (UInt32.ofNat (word region (macOffset i)))).map NetIf.index

/-- The body of the loop. -/
def macPort (region : List UInt8) (s : Links) (i : ℕ) : Links :=
  match macIface P region i with
  | none => s
  | some iface =>
      if s.isUp iface = true then
        let (ret, s) := netIfDown ok iface s
        if ret = false then s
        else netIfUp ok iface (setMacAddress ok iface (macAt region i) s)
      else setMacAddress ok iface (macAt region i) s

/-- `mac_addr_init`. -/
def macAddrInit (region : List UInt8) (s : Links) : Links :=
  let numPorts := word region 4
  if numPorts = 0 ∨ numPorts > pseMaxGbePorts then s
  else (List.range numPorts).foldl (macPort P ok region) s

/-! ### What is wanted -/

/-- **The links**, with the calls that are made: an address is set on a link that is down; and
afterwards exactly those links are up that were up before and have not failed to come up again. -/
structure LinksKept (s s' : Links) (calls : List NetCall) : Prop where
  made : s'.calls = s.calls ++ calls
  setDown : ∀ {iface addr isUp ok}, .setMac iface addr isUp ok ∈ calls → isUp = false
  isUp : ∀ iface, s'.isUp iface = true ↔ s.isUp iface = true ∧ .up iface false ∉ calls

/-- An address is given to an interface, or the link of this cannot be taken down. -/
def Delivered (calls : List NetCall) (iface : ℕ) (addr : List UInt8) : Prop :=
  (∃ ok, .setMac iface addr false ok ∈ calls) ∨ .down iface false ∈ calls

/-- The number of the ports that `mac_addr_init` looks at. -/
def macPorts (region : List UInt8) : ℕ :=
  if word region 4 > pseMaxGbePorts then 0 else word region 4

/-- **The addresses**: every port with an interface has its address delivered, and no others are. -/
structure AddressesGiven (region : List UInt8) (calls : List NetCall) : Prop where
  every : ∀ i < macPorts region, ∀ iface, macIface P region i = some iface →
    Delivered calls iface (macAt region i)
  only : ∀ {iface addr isUp ok}, .setMac iface addr isUp ok ∈ calls →
    ∃ i < macPorts region, macIface P region i = some iface ∧ addr = macAt region i

/-! ### The digits -/

/-- A digit that is a capital was a digit. -/
theorem mem_hexDigits_of_toUpper {c : Char} (h : c.toUpper ∈ upper hexDigits) :
    c ∈ hexDigits := by
  by_cases hlow : 'a' ≤ c ∧ c ≤ 'z'
  · obtain ⟨h1, h2⟩ := hlow
    have h1' : 97 ≤ c.toNat := h1
    have h2' : c.toNat ≤ 122 := h2
    rw [← Char.ofNat_toNat c] at h ⊢
    generalize c.toNat = n at h h1' h2'
    revert h
    interval_cases n <;> decide
  · have hsame : c.toUpper = c := by
      unfold Char.toUpper
      rw [dif_neg]
      exact hlow
    rw [hsame] at h
    obtain ⟨d, hd, rfl⟩ := List.mem_map.1 h
    exact toUpper_mem d hd

theorem mac_spec (mac : Mac) : mac.val.length = 12 ∧ ∀ c ∈ mac.val, c ∈ hexDigits := by
  have hacc := mac.property
  rw [macAccepted, Bool.and_eq_true, decide_eq_true_eq, List.all_eq_true, upper,
    List.length_map] at hacc
  refine ⟨hacc.1, fun c hc => mem_hexDigits_of_toUpper ?_⟩
  exact List.contains_iff_mem.1 (hacc.2 _ (List.mem_map_of_mem hc))

/-- Two digits of an address. -/
theorem macPos_spec (mac : Mac) {k : ℕ} (hk : k < 6) :
    (macPos mac.val k).length = 2 ∧ (∀ c ∈ macPos mac.val k, c ∈ hexDigits) ∧
      macPos (upper mac.val) k = upper (macPos mac.val k) := by
  obtain ⟨hlen, hmem⟩ := mac_spec mac
  unfold macPos upper
  refine ⟨?_, fun c hc => hmem c (List.mem_of_mem_drop (List.mem_of_mem_take hc)), ?_⟩
  · rw [List.length_take, List.length_drop, hlen]
    omega
  · rw [← List.map_drop, ← List.map_take]

/-- The bytes of the address, as numbers. -/
def macByte (mac : Mac) (k : ℕ) : ℕ := numeral 16 (macPos mac.val k)

theorem macByte_lt (mac : Mac) {k : ℕ} (hk : k < 6) : macByte mac k < 256 := by
  obtain ⟨hlen, hmem, -⟩ := macPos_spec mac hk
  have hlt := numeral_lt hmem
  rw [hlen] at hlt
  exact hlt

/-- Two digits behind a number. -/
theorem numeral_append_macPos (s : Text) (mac : Mac) {k : ℕ} (hk : k < 6) :
    numeral 16 (s ++ macPos (upper mac.val) k) = macByte mac k + 256 * numeral 16 s := by
  obtain ⟨hlen, hmem, hupper⟩ := macPos_spec mac hk
  rw [hupper, numeral_append, numeral_upper hmem]
  unfold upper macByte
  rw [List.length_map, hlen]
  ring

theorem numeral_macPos (mac : Mac) {k : ℕ} (hk : k < 6) :
    numeral 16 (macPos (upper mac.val) k) = macByte mac k := by
  have h := numeral_append_macPos [] mac hk
  rw [List.nil_append] at h
  rw [h]
  exact Nat.add_zero _

/-- **The two numbers**, with their lowest bytes first, are the address and two zeros. -/
theorem leBytes_macPositioning (mac : Mac) :
    Mem.leBytes 4 (numeral 16 (macPositioning (upper mac.val)).1) ++
        Mem.leBytes 4 (numeral 16 (macPositioning (upper mac.val)).2) =
      mac.address ++ [0, 0] := by
  have hlow : numeral 16 (macPositioning (upper mac.val)).1 =
      macByte mac 0 + 256 * (macByte mac 1 + 256 * (macByte mac 2 + 256 * macByte mac 3)) := by
    unfold macPositioning
    dsimp only
    rw [numeral_append_macPos _ mac (by decide), numeral_append_macPos _ mac (by decide),
      numeral_append_macPos _ mac (by decide), numeral_macPos mac (by decide)]
  have hhigh : numeral 16 (macPositioning (upper mac.val)).2 =
      macByte mac 4 + 256 * (macByte mac 5 + 256 * (0 + 256 * 0)) := by
    have hzero : numeral 16 ['0', '0', '0', '0'] = 0 := rfl
    unfold macPositioning
    dsimp only
    rw [numeral_append_macPos _ mac (by decide), numeral_append_macPos _ mac (by decide), hzero]
  rw [hlow, hhigh, leBytes_four _ (macByte_lt mac (by decide)) (macByte_lt mac (by decide))
    (macByte_lt mac (by decide)), leBytes_four _ (macByte_lt mac (by decide))
    (macByte_lt mac (by decide)) (by decide)]
  rfl

theorem length_address (mac : Mac) : mac.address.length = 6 := by
  rw [Mac.address, List.length_map, List.length_range]

/-- The two numbers are hexadecimal numbers. -/
theorem isHexNumber_macPositioning (mac : Mac) :
    IsHexNumber (macPositioning (upper mac.val)).1 ∧
      IsHexNumber (macPositioning (upper mac.val)).2 := by
  have hpos : ∀ {k : ℕ}, k < 6 → (macPos (upper mac.val) k).length = 2 ∧
      ∀ c ∈ macPos (upper mac.val) k, c ∈ hexDigits := by
    intro k hk
    obtain ⟨hlen, hmem, hupper⟩ := macPos_spec mac hk
    rw [hupper]
    exact ⟨(List.length_map _).trans hlen, mem_upper hmem⟩
  have hzeros : ∀ c ∈ ['0', '0', '0', '0'], c ∈ hexDigits := by decide
  have hlow : (macPositioning (upper mac.val)).1.length = 8 := by
    unfold macPositioning
    simp only [List.length_append, (hpos (k := 0) (by decide)).1, (hpos (k := 1) (by decide)).1,
      (hpos (k := 2) (by decide)).1, (hpos (k := 3) (by decide)).1]
  have hhigh : (macPositioning (upper mac.val)).2.length = 8 := by
    unfold macPositioning
    simp only [List.length_append, (hpos (k := 4) (by decide)).1, (hpos (k := 5) (by decide)).1,
      List.length_cons, List.length_nil]
  refine ⟨⟨List.ne_nil_of_length_pos (by omega), by omega, ?_⟩,
    ⟨List.ne_nil_of_length_pos (by omega), by omega, ?_⟩⟩
  · unfold macPositioning
    dsimp only
    rw [List.forall_mem_append, List.forall_mem_append, List.forall_mem_append]
    exact ⟨⟨⟨(hpos (by decide)).2, (hpos (by decide)).2⟩, (hpos (by decide)).2⟩,
      (hpos (by decide)).2⟩
  · unfold macPositioning
    dsimp only
    rw [List.forall_mem_append, List.forall_mem_append]
    exact ⟨⟨hzeros, (hpos (by decide)).2⟩, (hpos (by decide)).2⟩

/-! ### The template -/

/-- A text behind a command of `sed`. -/
def substitute (name number t : Text) : Text := if t = name then number else t

theorem sed_append (name number : Text) (l l' : List Value) :
    sed name number (l ++ l') = sed name number l ++ sed name number l' := List.map_append

theorem sed_macPortFields (name number bdf low high : Text) :
    sed name number (macPortFields bdf low high) =
      macPortFields (substitute name number bdf) (substitute name number low)
        (substitute name number high) := by
  unfold sed macPortFields substitute
  simp only [List.map_cons, List.map_nil, Value.text.injEq, apply_ite Value.text]

/-- What is no name stays: a number has no underscore. -/
theorem substitute_hex {name t : Text} (number : Text) (ht : IsHexNumber t)
    (hname : '_' ∈ name) : substitute name number t = t := by
  refine if_neg fun h => ?_
  subst h
  exact absurd (ht.2.2 _ hname) (by decide)

theorem substitute_self (name number : Text) : substitute name number name = number := if_pos rfl

theorem substitute_of_ne {name t : Text} (number : Text) (h : t ≠ name) :
    substitute name number t = t := if_neg h

/-- The values of a port with an address. -/
def macFields (bdf : Text) (mac : Mac) : List Value :=
  macPortFields bdf (macPositioning (upper mac.val)).1 (macPositioning (upper mac.val)).2

/-- A port that is filled already, or has no names, stays as it is. -/
theorem fillMac_of_hex {p : Placeholder} {bdf low high : Text} (mac : Mac)
    (hlow : '_' ∈ p.low) (hhigh : '_' ∈ p.high) (h : IsHexNumber bdf ∧ IsHexNumber low ∧
      IsHexNumber high) :
    fillMac p mac (macPortFields bdf low high) = macPortFields bdf low high := by
  unfold fillMac
  dsimp only
  rw [sed_macPortFields, sed_macPortFields, substitute_hex _ h.1 hlow, substitute_hex _ h.2.1 hlow,
    substitute_hex _ h.2.2 hlow, substitute_hex _ h.1 hhigh, substitute_hex _ h.2.1 hhigh,
    substitute_hex _ h.2.2 hhigh]

/-- The names of a port are filled. -/
theorem fillMac_self {p : Placeholder} {bdf : Text} (mac : Mac) (hbdf : IsHexNumber bdf)
    (hlow : '_' ∈ p.low) (hhigh : '_' ∈ p.high) (hne : p.high ≠ p.low) :
    fillMac p mac (macPortFields bdf p.low p.high) = macFields bdf mac := by
  unfold fillMac
  dsimp only
  rw [sed_macPortFields, sed_macPortFields, substitute_hex _ hbdf hlow,
    substitute_hex _ hbdf hhigh, substitute_self, substitute_of_ne _ hne, substitute_self,
    substitute_hex _ (isHexNumber_macPositioning mac).1 hhigh]
  rfl

/-- The names of another port stay. -/
theorem fillMac_of_ne {p q : Placeholder} {bdf : Text} (mac : Mac) (hbdf : IsHexNumber bdf)
    (hlow : '_' ∈ p.low) (hhigh : '_' ∈ p.high)
    (hne : q.low ≠ p.low ∧ q.low ≠ p.high ∧ q.high ≠ p.low ∧ q.high ≠ p.high) :
    fillMac p mac (macPortFields bdf q.low q.high) = macPortFields bdf q.low q.high := by
  unfold fillMac
  dsimp only
  rw [sed_macPortFields, sed_macPortFields, substitute_hex _ hbdf hlow,
    substitute_hex _ hbdf hhigh, substitute_of_ne _ hne.1, substitute_of_ne _ hne.2.1,
    substitute_of_ne _ hne.2.2.1, substitute_of_ne _ hne.2.2.2]

theorem fillMac_append (p : Placeholder) (mac : Mac) (l l' : List Value) :
    fillMac p mac (l ++ l') = fillMac p mac l ++ fillMac p mac l' := by
  unfold fillMac
  dsimp only
  rw [sed_append, sed_append]

theorem fillMac_numbers (p : Placeholder) (mac : Mac) :
    fillMac p mac [.number 1, .number 4] = [.number 1, .number 4] := by
  unfold fillMac sed
  simp

theorem fillMac_macFields {p : Placeholder} {bdf : Text} (mac mac' : Mac)
    (hbdf : IsHexNumber bdf) (hlow : '_' ∈ p.low) (hhigh : '_' ∈ p.high) :
    fillMac p mac (macFields bdf mac') = macFields bdf mac' :=
  fillMac_of_hex mac hlow hhigh ⟨hbdf, isHexNumber_macPositioning mac'⟩

/-- The port that is not used. -/
def unusedMacFields : List Value :=
  macPortFields "00000000".toList "AABBCCDD".toList "00001122".toList

/-- **The file**: every name has been replaced by its number. -/
theorem macFile_eq (c : MacEntries) : macFile c =
    [.number 1, .number 4] ++ macFields "000F4000".toList c.pch ++
      macFields "000E9000".toList c.gbe0 ++ macFields "000EA000".toList c.gbe1 ++
      unusedMacFields := by
  have hunused : ∀ (p : Placeholder) (mac : Mac), '_' ∈ p.low → '_' ∈ p.high →
      fillMac p mac unusedMacFields = unusedMacFields := fun p mac hlow hhigh =>
    fillMac_of_hex mac hlow hhigh (by decide)
  have htemplate : macTemplate = [.number 1, .number 4] ++
      macPortFields "000F4000".toList pchMac.low pchMac.high ++
      macPortFields "000E9000".toList pse0Mac.low pse0Mac.high ++
      macPortFields "000EA000".toList pse1Mac.low pse1Mac.high ++ unusedMacFields := rfl
  unfold macFile
  rw [htemplate]
  simp only [fillMac_append, fillMac_numbers]
  rw [fillMac_self c.pch (by decide) (by decide) (by decide) (by decide),
    fillMac_of_ne c.pch (q := pse0Mac) (by decide) (by decide) (by decide) (by decide),
    fillMac_of_ne c.pch (q := pse1Mac) (by decide) (by decide) (by decide) (by decide),
    hunused _ _ (by decide) (by decide),
    fillMac_macFields c.gbe0 c.pch (by decide) (by decide) (by decide),
    fillMac_self c.gbe0 (by decide) (by decide) (by decide) (by decide),
    fillMac_of_ne c.gbe0 (q := pse1Mac) (by decide) (by decide) (by decide) (by decide),
    hunused _ _ (by decide) (by decide),
    fillMac_macFields c.gbe1 c.pch (by decide) (by decide) (by decide),
    fillMac_macFields c.gbe1 c.gbe0 (by decide) (by decide) (by decide),
    fillMac_self c.gbe1 (by decide) (by decide) (by decide) (by decide),
    hunused _ _ (by decide) (by decide)]

/-! ### The region -/

section Region

variable {tool : SubregionCapsule} {c : MacEntries} {region : List UInt8}

/-- The ports of the PCH and the PSE, in the order of the template, with their devices. -/
def MacEntries.ports (c : MacEntries) : List (Text × Mac) :=
  [("000F4000".toList, c.pch), ("000E9000".toList, c.gbe0), ("000EA000".toList, c.gbe1)]

/-- A port in the region. -/
theorem macFields_stored {bdf : Text} {mac : Mac} {i : ℕ} (hbdf : IsHexNumber bdf)
    (h : StoredAt tool region (macOffset i) (macFields bdf mac)) :
    word region (macOffset i) = numeral 16 bdf ∧
      slice region (macOffset i + 4) 8 = mac.address ++ [0, 0] := by
  obtain ⟨hlow, hhigh⟩ := isHexNumber_macPositioning mac
  have h0 := h (j := 0) rfl
  have h1 := h (j := 1) rfl
  have h2 := h (j := 2) rfl
  rw [tool.store_text hlow, Option.some_inj] at h1
  rw [tool.store_text hhigh, Option.some_inj] at h2
  refine ⟨word_of_store_text hbdf h0, ?_⟩
  rw [slice_add region (macOffset i + 4) 4 4, ← leBytes_macPositioning, h1, h2]

/-- **What is in the region for every port**: its device and its address, behind a count of four. -/
theorem macRegion_entry (h : macRegion tool c = some region) : word region 4 = 4 ∧
    ∀ (i : ℕ) (bdf : Text) (mac : Mac), c.ports[i]? = some (bdf, mac) →
      word region (macOffset i) = numeral 16 bdf ∧
        slice region (macOffset i + 4) 8 = mac.address ++ [0, 0] := by
  have hfile : tool.storeAll (macFile c) = some region := h
  rw [macFile_eq] at hfile
  refine ⟨word_of_store (by decide) (store_of_storeAll hfile (k := 1) rfl), ?_⟩
  intro i bdf mac hi
  rw [List.append_assoc, List.append_assoc, List.append_assoc] at hfile
  rcases i with _ | _ | _ | i
  · obtain ⟨rfl, rfl⟩ := Prod.mk.inj (Option.some.inj hi)
    exact macFields_stored (i := 0) (by decide) (storedAt_of_storeAll hfile (n := 2) rfl)
  · obtain ⟨rfl, rfl⟩ := Prod.mk.inj (Option.some.inj hi)
    rw [← List.append_assoc] at hfile
    exact macFields_stored (i := 1) (by decide) (storedAt_of_storeAll hfile (n := 5) rfl)
  · obtain ⟨rfl, rfl⟩ := Prod.mk.inj (Option.some.inj hi)
    rw [← List.append_assoc, ← List.append_assoc] at hfile
    exact macFields_stored (i := 2) (by decide) (storedAt_of_storeAll hfile (n := 8) rfl)
  · cases hi

theorem isSome_macFields {bdf : Text} (mac : Mac) (hbdf : IsHexNumber bdf) :
    ∀ v ∈ macFields bdf mac, (tool.store v).isSome := by
  obtain ⟨hlow, hhigh⟩ := isHexNumber_macPositioning mac
  unfold macFields macPortFields
  simp only [List.forall_mem_cons, List.not_mem_nil, false_implies, implies_true, and_true]
  exact ⟨isSome_text hbdf, isSome_text hlow, isSome_text hhigh⟩

/-- There is a region, whatever is entered. -/
theorem exists_macRegion (tool : SubregionCapsule) (c : MacEntries) :
    ∃ region, macRegion tool c = some region := by
  refine exists_storeAll ?_
  rw [macFile_eq]
  unfold unusedMacFields macPortFields
  simp only [List.forall_mem_append, List.forall_mem_cons, List.not_mem_nil, false_implies,
    implies_true, and_true]
  have h0 : ∀ v ∈ macFields "000F4000".toList c.pch, (tool.store v).isSome :=
    isSome_macFields c.pch (by decide)
  have h1 : ∀ v ∈ macFields "000E9000".toList c.gbe0, (tool.store v).isSome :=
    isSome_macFields c.gbe0 (by decide)
  have h2 : ∀ v ∈ macFields "000EA000".toList c.gbe1, (tool.store v).isSome :=
    isSome_macFields c.gbe1 (by decide)
  exact ⟨⟨⟨⟨⟨isSome_number (by decide), isSome_number (by decide)⟩, h0⟩, h1⟩, h2⟩,
    isSome_text (by decide), isSome_text (by decide), isSome_text (by decide)⟩

end Region

/-! ### The loop over the ports -/

section Loop

variable {P : TsnPlatform} {ok : ℕ → Bool} {region : List UInt8} {s s' s'' : Links}
variable {calls calls' : List NetCall}

theorem LinksKept.refl (s : Links) : LinksKept s s [] :=
  ⟨(List.append_nil _).symm, nofun, fun _ => (and_iff_left List.not_mem_nil).symm⟩

theorem LinksKept.trans (h : LinksKept s s' calls) (h' : LinksKept s' s'' calls') :
    LinksKept s s'' (calls ++ calls') := by
  refine ⟨?_, ?_, fun iface => ?_⟩
  · rw [h'.made, h.made, List.append_assoc]
  · intro iface addr isUp ok hmem
    rcases List.mem_append.1 hmem with hmem | hmem
    · exact h.setDown hmem
    · exact h'.setDown hmem
  · rw [h'.isUp, h.isUp, List.mem_append, not_or, and_assoc]

/-- **One port**: its interface gets its address, and its link is as before. -/
theorem macPort_spec (P : TsnPlatform) (ok : ℕ → Bool) (region : List UInt8) (s : Links) (i : ℕ) :
    ∃ calls, LinksKept s (macPort P ok region s i) calls ∧
      (∀ iface, macIface P region i = some iface → Delivered calls iface (macAt region i)) ∧
      ∀ {iface addr isUp ok}, .setMac iface addr isUp ok ∈ calls →
        macIface P region i = some iface ∧ addr = macAt region i := by
  unfold macPort
  cases hif : macIface P region i with
  | none => exact ⟨[], LinksKept.refl s, nofun, nofun⟩
  | some f =>
      dsimp only
      by_cases hup : s.isUp f = true
      · rw [if_pos hup]
        unfold netIfDown
        dsimp only
        cases hdown : ok s.calls.length with
        | false =>
            rw [if_pos rfl, if_neg (by decide)]
            refine ⟨[.down f false], ⟨rfl, ?_, fun g => ?_⟩, ?_, ?_⟩
            · intro _ _ _ _ hmem
              cases List.mem_singleton.1 hmem
            · exact (and_iff_left fun hmem => nomatch List.mem_singleton.1 hmem).symm
            · intro iface h
              obtain rfl := Option.some.inj h
              exact Or.inr (List.mem_singleton_self _)
            · intro _ _ _ _ hmem
              cases List.mem_singleton.1 hmem
        | true =>
            rw [if_pos rfl, if_neg (by decide)]
            unfold setMacAddress netIfUp
            dsimp only
            rw [Function.update_self]
            generalize hb : ok (s.calls ++ [NetCall.down f true]).length = b
            generalize hret : ok (s.calls ++ [NetCall.down f true] ++
              [NetCall.setMac f (macAt region i) false b]).length = ret
            refine ⟨[.down f true, .setMac f (macAt region i) false b, .up f ret],
              ⟨?_, ?_, fun g => ?_⟩, ?_, ?_⟩
            · rw [List.append_assoc, List.append_assoc]
              rfl
            · intro _ _ _ _ hmem
              simp only [List.mem_cons, List.not_mem_nil, or_false, NetCall.setMac.injEq,
                reduceCtorEq, false_or] at hmem
              exact hmem.2.2.1
            · have hmem : NetCall.up g false ∈ [NetCall.down f true,
                  .setMac f (macAt region i) false b, .up f ret] ↔ g = f ∧ ret = false := by
                simp only [List.mem_cons, List.not_mem_nil, or_false, NetCall.up.injEq,
                  reduceCtorEq, false_or, eq_comm (a := false)]
              rw [hmem]
              by_cases hg : g = f
              · subst hg
                rw [hup]
                cases ret <;> simp
              · rw [and_iff_left fun h => hg h.1]
                cases ret <;> simp [Function.update_of_ne hg]
            · intro iface h
              obtain rfl := Option.some.inj h
              exact Or.inl ⟨b, List.mem_cons_of_mem _ List.mem_cons_self⟩
            · intro _ _ _ _ hmem
              simp only [List.mem_cons, List.not_mem_nil, or_false, NetCall.setMac.injEq,
                reduceCtorEq, false_or] at hmem
              exact ⟨hmem.1 ▸ rfl, hmem.2.1⟩
      · rw [if_neg hup]
        unfold setMacAddress
        rw [Bool.eq_false_of_not_eq_true hup]
        refine ⟨[.setMac f (macAt region i) false (ok s.calls.length)], ⟨rfl, ?_, fun g => ?_⟩,
          ?_, ?_⟩
        · intro _ _ _ _ hmem
          exact (NetCall.setMac.inj (List.mem_singleton.1 hmem)).2.2.1
        · exact (and_iff_left fun hmem => nomatch List.mem_singleton.1 hmem).symm
        · intro iface h
          obtain rfl := Option.some.inj h
          exact Or.inl ⟨_, List.mem_singleton_self _⟩
        · intro _ _ _ _ hmem
          obtain ⟨rfl, rfl, -, -⟩ := NetCall.setMac.inj (List.mem_singleton.1 hmem)
          exact ⟨rfl, rfl⟩

/-- The loop over the first ports. -/
theorem macLoop_spec (P : TsnPlatform) (ok : ℕ → Bool) (region : List UInt8) (s : Links) (n : ℕ) :
    ∃ calls, LinksKept s ((List.range n).foldl (macPort P ok region) s) calls ∧
      (∀ i < n, ∀ iface, macIface P region i = some iface →
        Delivered calls iface (macAt region i)) ∧
      ∀ {iface addr isUp ok}, .setMac iface addr isUp ok ∈ calls →
        ∃ i < n, macIface P region i = some iface ∧ addr = macAt region i := by
  induction n with
  | zero => exact ⟨[], LinksKept.refl s, nofun, nofun⟩
  | succ n ih =>
      obtain ⟨calls, hkept, hevery, honly⟩ := ih
      obtain ⟨calls', hkept', hevery', honly'⟩ := macPort_spec P ok region
        ((List.range n).foldl (macPort P ok region) s) n
      rw [List.range_succ, List.foldl_append]
      refine ⟨calls ++ calls', hkept.trans hkept', fun i hi iface hif => ?_, ?_⟩
      · rcases Nat.lt_succ_iff_lt_or_eq.1 hi with hi | rfl
        · rcases hevery i hi iface hif with ⟨ret, hmem⟩ | hmem
          · exact Or.inl ⟨ret, List.mem_append_left _ hmem⟩
          · exact Or.inr (List.mem_append_left _ hmem)
        · rcases hevery' iface hif with ⟨ret, hmem⟩ | hmem
          · exact Or.inl ⟨ret, List.mem_append_right _ hmem⟩
          · exact Or.inr (List.mem_append_right _ hmem)
      · intro iface addr isUp ret hmem
        rcases List.mem_append.1 hmem with hmem | hmem
        · obtain ⟨i, hi, h⟩ := honly hmem
          exact ⟨i, Nat.lt_succ_of_lt hi, h⟩
        · exact ⟨n, Nat.lt_succ_self n, honly' hmem⟩

/-- **`mac_addr_init`**, whatever the region holds and the drivers answer: addresses are set on
links that are down, the links are as before but for those that do not come up again, and every port
with an interface is served. -/
theorem linksKept_macAddrInit (P : TsnPlatform) (ok : ℕ → Bool) (region : List UInt8) (s : Links) :
    ∃ calls, LinksKept s (macAddrInit P ok region s) calls ∧ AddressesGiven P region calls := by
  unfold macAddrInit
  by_cases hnum : word region 4 = 0 ∨ word region 4 > pseMaxGbePorts
  · have hports : macPorts region = 0 := by
      unfold macPorts
      rcases hnum with hnum | hnum
      · rw [hnum]
        rfl
      · rw [if_pos hnum]
    rw [if_pos hnum]
    refine ⟨[], LinksKept.refl s, ?_, nofun⟩
    intro i hi
    rw [hports] at hi
    cases hi
  · obtain ⟨calls, hkept, hevery, honly⟩ := macLoop_spec P ok region s (word region 4)
    have hports : macPorts region = word region 4 := if_neg fun h => hnum (Or.inr h)
    rw [if_neg hnum]
    refine ⟨calls, hkept, ?_, ?_⟩
    · rw [hports]
      exact hevery
    · rw [hports]
      exact honly

/-- The region of the script lists more ports than `mac_addr_init` takes. -/
theorem macAddrInit_macRegion {tool : SubregionCapsule} {c : MacEntries}
    (h : macRegion tool c = some region) (P : TsnPlatform) (ok : ℕ → Bool) (s : Links) :
    macAddrInit P ok region s = s := by
  unfold macAddrInit
  rw [(macRegion_entry h).1]
  exact if_pos (Or.inr (by decide))

/-! ### From the script to the driver -/

/-- The region in memory has, for `port[i]`, the entry `port[k]` of another one. -/
def Copied (region capsule : List UInt8) (i k : ℕ) : Prop :=
  slice region (macOffset i) 12 = slice capsule (macOffset k) 12

/-- The interface of a port of the PSE. -/
def pseIface (P : TsnPlatform) (k : ℕ) : Option ℕ :=
  (if k = 1 then P.gbe0 else if k = 2 then P.gbe1 else none).map NetIf.index

theorem word_of_copied {capsule : List UInt8} {i k : ℕ} (h : Copied region capsule i k) :
    word region (macOffset i) = word capsule (macOffset k) := by
  have hslice := congrArg (fun l => slice l 0 4) h
  rw [slice_slice (by decide), slice_slice (by decide), Nat.add_zero, Nat.add_zero] at hslice
  unfold word
  rw [hslice]

theorem macAt_of_copied {capsule : List UInt8} {i k : ℕ} (h : Copied region capsule i k) :
    macAt region i = macAt capsule k := by
  have hslice := congrArg (fun l => slice l 4 6) h
  rw [slice_slice (by decide), slice_slice (by decide)] at hslice
  exact hslice

/-- The address of a port in the region of the script. -/
theorem macAt_entry {tool : SubregionCapsule} {c : MacEntries} {capsule : List UInt8} {k : ℕ}
    {bdf : Text} {mac : Mac} (hcapsule : macRegion tool c = some capsule)
    (hk : c.ports[k]? = some (bdf, mac)) : macAt capsule k = mac.address := by
  obtain ⟨-, hslice⟩ := (macRegion_entry hcapsule).2 k bdf mac hk
  have htake := congrArg (fun l => slice l 0 6) hslice
  rw [slice_slice (by decide), Nat.add_zero] at htake
  have haddr := slice_middle [] mac.address [0, 0]
  rw [length_address, List.nil_append] at haddr
  exact htake.trans haddr

/-- The interface of a port in the region of the script. -/
theorem macIface_entry {tool : SubregionCapsule} {c : MacEntries} {capsule : List UInt8} {k : ℕ}
    {bdf : Text} {mac : Mac} (hcapsule : macRegion tool c = some capsule)
    (hk : c.ports[k]? = some (bdf, mac)) : macIface P capsule k = pseIface P k := by
  unfold macIface pseIface pciport2Iface
  rw [((macRegion_entry hcapsule).2 k bdf mac hk).1]
  rcases k with _ | _ | _ | k
  · obtain ⟨rfl, rfl⟩ := Prod.mk.inj (Option.some.inj hk)
    rfl
  · obtain ⟨rfl, rfl⟩ := Prod.mk.inj (Option.some.inj hk)
    rfl
  · obtain ⟨rfl, rfl⟩ := Prod.mk.inj (Option.some.inj hk)
    rfl
  · cases hk

/-- **An address arrives as it was entered**: when the region in memory has the entry of a port of
the PSE, the interface of this port is given the address that was entered for it. -/
theorem delivered_macAddrInit {tool : SubregionCapsule} {c : MacEntries} {capsule : List UInt8}
    {i k iface : ℕ} {bdf : Text} {mac : Mac} (hcapsule : macRegion tool c = some capsule)
    (hk : c.ports[k]? = some (bdf, mac)) (hcopy : Copied region capsule i k)
    (hi : i < macPorts region) (hif : pseIface P k = some iface) (s : Links) :
    ∃ calls, (macAddrInit P ok region s).calls = s.calls ++ calls ∧
      Delivered calls iface mac.address := by
  obtain ⟨calls, hkept, hgiven⟩ := linksKept_macAddrInit P ok region s
  refine ⟨calls, hkept.made, ?_⟩
  have hiface : macIface P region i = some iface := by
    rw [← hif, ← macIface_entry hcapsule hk]
    unfold macIface
    rw [word_of_copied hcopy]
  rw [← macAt_entry hcapsule hk, ← macAt_of_copied hcopy]
  exact hgiven.every i hi iface hiface

end Loop

/-! ### Three addresses -/

/-- Three addresses; the letters may be small. -/
def someMacs : MacEntries where
  pch := ⟨"001122334455".toList, by decide⟩
  gbe0 := ⟨"88abcd110001".toList, by decide⟩
  gbe1 := ⟨"88ABCD110002".toList, by decide⟩

/-- The region the script makes of them. -/
def someCapsule : List UInt8 := (macRegion zeroTool someMacs).getD []

/-- A region in memory with the two ports of the PSE. -/
def pseRegion : List UInt8 := Mem.leBytes 4 1 ++ Mem.leBytes 4 2 ++ slice someCapsule 20 24

/-- The first port of the PSE has its link up. -/
def someLinks : Links := ⟨fun iface => decide (iface = 1), []⟩

/-- The first port gets its address. -/
theorem delivered_someMacs :
    ∃ calls, (macAddrInit gbePlatform (fun _ => true) pseRegion someLinks).calls =
      someLinks.calls ++ calls ∧ Delivered calls 1 [0x88, 0xAB, 0xCD, 0x11, 0, 1] := by
  have hcapsule : macRegion zeroTool someMacs = some someCapsule := by decide +kernel
  have hport : someMacs.ports[1]? = some ("000E9000".toList, someMacs.gbe0) := rfl
  have hcopy : Copied pseRegion someCapsule 0 1 := by
    unfold Copied
    decide +kernel
  have hi : 0 < macPorts pseRegion := by decide +kernel
  have hif : pseIface gbePlatform 1 = some 1 := rfl
  obtain ⟨calls, hmade, hgiven⟩ := delivered_macAddrInit hcapsule hport hcopy hi hif someLinks
  exact ⟨calls, hmade, hgiven⟩

end PseFw.Tsn
