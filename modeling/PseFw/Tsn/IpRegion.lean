/-
**The addresses of the IP region.**

The capsule script fills a template with the addresses that are entered for the two ports, and a
tool stores the numbers of the file one behind the other, four bytes each.  `ip_config_init` takes
the addresses out of the region, byte by byte, and gives them to the network stack.

The IPv4 addresses arrive as they were entered.  Of an IPv6 address only the groups arrive whose
place in the code is their place in the address: the first one, and in a text of six fields those
behind the two colons.

Main definitions:

* `SubregionCapsule` — the tool that stores the numbers;
* `ipFile`, `ipRegion` — the file the script writes, and the region;
* `ipConfigInit` — what is given to the network stack;
* `AddressesExact`, `Ipv6.Fits` — what is wanted, and the texts for which it is so.

Main results:

* `numbers_exact_iff` — the four numbers of an IPv6 address;
* `addressesExact_iff` — **for which entries the addresses arrive**;
* `not_addressesExact_documentation` — `2001:db8::1`.
-/

import PseFw.Tsn.AddressText
import PseFw.Tsn.GateControl
import PseFw.Lib.Image

set_option relaxedAutoImplicit false
set_option autoImplicit false

namespace PseFw.Tsn

open Image

/-! ### The file -/

/-- A value in the file: a text in quotes, or a number. -/
inductive Value
  | text (t : Text)
  | number (n : ℕ)
  deriving DecidableEq, Repr

/-- How `subregion_capsule.py`, which is not in the repository, stores a value in four bytes.  Of an
empty text nothing is known. -/
structure SubregionCapsule where
  store : Value → Option (List UInt8)
  length_store : ∀ {v : Value} {bs : List UInt8}, store v = some bs → bs.length = 4
  store_text : ∀ {t : Text}, IsHexNumber t → store (.text t) = some (Mem.leBytes 4 (numeral 16 t))
  store_number : ∀ {n : ℕ}, n < 2 ^ 32 → store (.number n) = some (Mem.leBytes 4 n)

/-- The values of a file, one behind the other. -/
def SubregionCapsule.storeAll (tool : SubregionCapsule) : List Value → Option (List UInt8)
  | [] => some []
  | v :: vs => (tool.store v).bind fun bs => (tool.storeAll vs).map fun rest => bs ++ rest

/-- What is entered for a port with static addresses; the servers are in the order of their
numbers. -/
structure StaticEntry where
  ipv4 : Ipv4
  subnet : Ipv4
  gateway : Ipv4
  dns : List Ipv4
  ipv6 : Ipv6
  length_dns : dns.length ≤ 4

/-- What is selected for a port; to skip it is the same as DHCP. -/
inductive Network
  | static (e : StaticEntry)
  | dhcp

/-- What is entered for the two ports: the second one must not have the addresses of the first. -/
structure IpEntries where
  gbe0 : Network
  gbe1 : Network
  distinct : ∀ {e e' : StaticEntry}, gbe0 = .static e → gbe1 = .static e' →
    e'.ipv4.val ≠ e.ipv4.val ∧ e'.ipv6.val.text ≠ e.ipv6.val.text

/-- The loop over the servers, from the last one to the first one. -/
def dnsLoop (dns : List Ipv4) (dnssrvAdd : List Value) : List Value :=
  dns.zipIdx.foldr (fun server add => add.set server.2 (.text (ipPositioning server.1.val)))
    dnssrvAdd

/-- `dnssrv_add` behind the questions for a port. -/
def dnssrvAdd (before : List Value) : Network → List Value
  | .static e =>
      if 0 < e.dns.length then dnsLoop e.dns (List.replicate 4 (.number 0)) else before
  | .dhcp => before

/-- The values of a port. -/
def portFields (bdf : Text) (add : List Value) : Network → List Value
  | .static e =>
      [.text bdf, .number 1, .number 1, .text (ipPositioning e.ipv4.val)] ++
        (ipv6Positioning e.ipv6.val.text).map .text ++
        [.text (ipPositioning e.subnet.val), .text (ipPositioning e.gateway.val),
          .number e.dns.length] ++ add ++ [.number 0, .number 0]
  | .dhcp => [.text bdf, .number 1] ++ List.replicate 15 (.number 0)

/-- The values of a port that is not used. -/
def unusedFields : List Value :=
  .text ['0', '0', '0', '0', '0', '0', '0', '0'] :: List.replicate 16 (.number 0)

/-- The file that is made from `ip_template.json`. -/
def ipFile (c : IpEntries) : List Value :=
  let add0 := dnssrvAdd (List.replicate 4 (.number 0)) c.gbe0
  let add1 := dnssrvAdd add0 c.gbe1
  [.number 1, .number 2] ++ portFields ['0', '0', '0', 'E', '9', '0', '0', '0'] add0 c.gbe0 ++
    portFields ['0', '0', '0', 'E', 'A', '0', '0', '0'] add1 c.gbe1 ++ unusedFields ++ unusedFields

/-- The region. -/
def ipRegion (tool : SubregionCapsule) (c : IpEntries) : Option (List UInt8) :=
  tool.storeAll (ipFile c)

/-! ### The network stack -/

/-- The addresses of a port. -/
structure StaticAddresses where
  ipv6 : List UInt8
  ipv4 : List UInt8
  netmask : List UInt8
  gateway : List UInt8
  deriving DecidableEq, Repr

/-- What the network stack is given for a port. -/
structure IpSetup where
  iface : ℕ
  static : Option StaticAddresses
  dns : List (List UInt8)
  deriving DecidableEq, Repr

/-- Where `port[i]` is in `struct ip_config_data`. -/
def portOffset (i : ℕ) : ℕ := 8 + 68 * i

/-- A number in the region. -/
def word (region : List UInt8) (a : ℕ) : ℕ := Mem.ofLe (slice region a 4)

/-- The addresses of `port[i]`, if they are static. -/
def staticAddresses (region : List UInt8) (port : ℕ) : Option StaticAddresses :=
  if word region (port + 8) ≠ 0 then
    some ⟨slice region (port + 16) 16, slice region (port + 12) 4, slice region (port + 32) 4,
      slice region (port + 36) 4⟩
  else none

/-- `DNS_SERVER_ENTRY_MAX`. -/
abbrev dnsServerEntryMax : ℕ := 4

/-- The servers of `port[i]`. -/
def dnsServers (region : List UInt8) (port : ℕ) : List (List UInt8) :=
  (List.range (min (word region (port + 40)) dnsServerEntryMax)).map fun k =>
    slice region (port + 44 + 4 * k) 4

/-- `ip_config_init`; the interface of a device is found by `pciport_2_iface`. -/
def ipConfigInit (pciport2Iface : ℕ → Option ℕ) (region : List UInt8) : List IpSetup :=
  let numPorts := word region 4
  if numPorts = 0 ∨ numPorts > pseMaxGbePorts then []
  else
    (List.range numPorts).filterMap fun i =>
      let port := portOffset i
      if word region (port + 4) = 0 then none
      else
        (pciport2Iface (word region port)).map fun iface =>
          ⟨iface, staticAddresses region port, dnsServers region port⟩

/-! ### What is wanted -/

/-- The addresses that were entered. -/
def Network.static? : Network → Option StaticAddresses
  | .static e => some ⟨e.ipv6.val.address, e.ipv4.address, e.subnet.address, e.gateway.address⟩
  | .dhcp => none

/-- The servers that were entered. -/
def Network.dns : Network → List (List UInt8)
  | .static e => e.dns.map Ipv4.address
  | .dhcp => []

/-- What the network stack is to be given. -/
def wantedSetups (pciport2Iface : ℕ → Option ℕ) (c : IpEntries) : List IpSetup :=
  [(0xE9000, c.gbe0), (0xEA000, c.gbe1)].filterMap fun port =>
    (pciport2Iface port.1).map fun iface => ⟨iface, port.2.static?, port.2.dns⟩

/-- **The addresses arrive**: there is a region, and the network stack is given the addresses that
were entered, in network order. -/
def AddressesExact (tool : SubregionCapsule) (c : IpEntries) : Prop :=
  ∀ pciport2Iface : ℕ → Option ℕ, ∃ region, ipRegion tool c = some region ∧
    ipConfigInit pciport2Iface region = wantedSetups pciport2Iface c

/-- Every field that is not zero is the first one, or it is behind the two colons in a text of six
fields. -/
def Ipv6.Aligned (t : Ipv6) : Prop :=
  ∀ i < t.val.fields.length, fieldValue t.val.fields i ≠ 0 →
    i = 0 ∨ (t.val.gap < i ∧ t.val.fields.length = 6)

/-- The fields are where the code puts them, and the empty text, where there are too few of them, is
stored as zero. -/
def Ipv6.Fits (tool : SubregionCapsule) (t : Ipv6) : Prop :=
  t.Aligned ∧ (t.val.fields.length ≤ 4 → tool.store (.text []) = some [0, 0, 0, 0])

/-- The IPv6 address of a port fits, if it has one. -/
def Network.Fits (tool : SubregionCapsule) : Network → Prop
  | .static e => e.ipv6.Fits tool
  | .dhcp => True

/-! ### The values in the region -/

section StoreAll

variable {tool : SubregionCapsule} {vs : List Value} {region : List UInt8}

/-- **Every value is in the region.** -/
theorem store_of_storeAll (h : tool.storeAll vs = some region) {k : ℕ} {v : Value}
    (hv : vs[k]? = some v) : tool.store v = some (slice region (4 * k) 4) := by
  induction vs generalizing k region with
  | nil => cases hv
  | cons u vs ih =>
      obtain ⟨bs, hbs, hmap⟩ := Option.bind_eq_some_iff.1 h
      obtain ⟨rest, hrest, rfl⟩ := Option.map_eq_some_iff.1 hmap
      have hlen := tool.length_store hbs
      cases k with
      | zero =>
          have hmid := slice_middle [] bs rest
          rw [List.nil_append, hlen] at hmid
          rw [List.getElem?_cons_zero] at hv
          cases hv
          rw [hbs]
          exact congrArg some hmid.symm
      | succ k =>
          rw [List.getElem?_cons_succ] at hv
          rw [slice_append_right _ _ (by omega), hlen, Nat.mul_succ, Nat.add_sub_cancel]
          exact ih hrest hv

/-- There is a region if every value can be stored. -/
theorem exists_storeAll (h : ∀ v ∈ vs, (tool.store v).isSome) :
    ∃ region, tool.storeAll vs = some region := by
  induction vs with
  | nil => exact ⟨[], rfl⟩
  | cons v vs ih =>
      obtain ⟨bs, hbs⟩ := Option.isSome_iff_exists.1 (h v List.mem_cons_self)
      obtain ⟨rest, hrest⟩ := ih fun u hu => h u (List.mem_cons_of_mem _ hu)
      refine ⟨bs ++ rest, ?_⟩
      unfold SubregionCapsule.storeAll
      rw [hbs, hrest]
      rfl

/-- Numbers of four bytes are read as they were written. -/
theorem word_of_store {a n : ℕ} (hn : n < 2 ^ 32)
    (h : tool.store (.number n) = some (slice region a 4)) : word region a = n := by
  rw [tool.store_number hn] at h
  unfold word
  rw [← Option.some.inj h, Mem.ofLe_leBytes hn]

theorem word_of_store_text {a : ℕ} {t : Text} (ht : IsHexNumber t)
    (h : tool.store (.text t) = some (slice region a 4)) : word region a = numeral 16 t := by
  have hlt : numeral 16 t < 256 ^ 4 :=
    lt_of_lt_of_le (numeral_lt ht.2.2) (Nat.pow_le_pow_right (by decide) ht.2.1)
  rw [tool.store_text ht] at h
  unfold word
  rw [← Option.some.inj h, Mem.ofLe_leBytes hlt]

/-- An IPv4 address is in the region as it was entered. -/
theorem slice_of_store {a : ℕ} {ip : Ipv4}
    (h : tool.store (.text (ipPositioning ip.val)) = some (slice region a 4)) :
    slice region a 4 = ip.address := by
  rw [tool.store_text (isHexNumber_ipPositioning ip), leBytes_ipPositioning] at h
  exact (Option.some.inj h).symm

end StoreAll

/-! ### The servers -/

/-- The array with the servers from the number `start` on. -/
def setServers (servers : List Ipv4) (start : ℕ) (add : List Value) : List Value :=
  (servers.zipIdx start).foldr (fun server add => add.set server.2
    (.text (ipPositioning server.1.val))) add

theorem setServers_cons (ip : Ipv4) (servers : List Ipv4) (start : ℕ) (add : List Value) :
    setServers (ip :: servers) start add =
      (setServers servers (start + 1) add).set start (.text (ipPositioning ip.val)) := rfl

theorem length_setServers (servers : List Ipv4) (start : ℕ) (add : List Value) :
    (setServers servers start add).length = add.length := by
  induction servers generalizing start with
  | nil => rfl
  | cons ip servers ih => rw [setServers_cons, List.length_set, ih]

theorem getElem?_setServers (servers : List Ipv4) (start : ℕ) (add : List Value) {k : ℕ}
    (hk : k < add.length) : (setServers servers start add)[k]? =
      if start ≤ k ∧ k < start + servers.length then
        servers[k - start]?.map fun ip => .text (ipPositioning ip.val)
      else add[k]? := by
  induction servers generalizing start with
  | nil =>
      rw [if_neg (by rw [List.length_nil]; omega)]
      rfl
  | cons ip servers ih =>
      rw [setServers_cons, List.getElem?_set, ih, length_setServers, List.length_cons]
      rcases lt_trichotomy start k with hlt | rfl | hgt
      · have hsub : k - start = k - (start + 1) + 1 := by omega
        rw [if_neg hlt.ne, hsub, List.getElem?_cons_succ]
        by_cases hin : k < start + 1 + servers.length
        · rw [if_pos ⟨hlt, hin⟩, if_pos (by omega)]
        · rw [if_neg (fun h => hin h.2), if_neg (by omega)]
      · rw [if_pos rfl, if_pos hk, if_pos (by omega), Nat.sub_self]
        rfl
      · rw [if_neg hgt.ne', if_neg (by omega), if_neg (by omega)]

/-- **The servers in the array**, in the order of their numbers. -/
theorem getElem?_dnsLoop {dns : List Ipv4} {add : List Value} {k : ℕ} (hk : k < add.length) :
    (dnsLoop dns add)[k]? =
      if k < dns.length then dns[k]?.map fun ip => .text (ipPositioning ip.val) else add[k]? := by
  have h := getElem?_setServers dns 0 add hk
  rw [Nat.zero_add, Nat.sub_zero] at h
  simp only [Nat.zero_le, true_and] at h
  exact h

/-! ### The groups of an IPv6 address -/

section Groups

variable {tool : SubregionCapsule} {t : Ipv6}

/-- A group of an address. -/
def Ipv6.group (t : Ipv6) (k : ℕ) : ℕ := t.val.groups.getD k 0

theorem group_lt (t : Ipv6) (k : ℕ) : t.group k < 65536 := by
  unfold Ipv6.group
  by_cases hk : k < t.val.groups.length
  · rw [List.getD_eq_getElem _ _ hk]
    exact mem_groups_lt (List.getElem_mem hk)
  · rw [List.getD_eq_default _ _ (Nat.le_of_not_lt hk)]
    decide

theorem address_eq (t : Ipv6) : t.val.address =
    networkBytes (t.group 0) (t.group 1) ++ (networkBytes (t.group 2) (t.group 3) ++
      (networkBytes (t.group 4) (t.group 5) ++ networkBytes (t.group 6) (t.group 7))) := by
  have hlen := length_groups t.val
  unfold Ipv6Text.address Ipv6.group
  generalize t.val.groups = gs at hlen
  rcases gs with _ | ⟨a, _ | ⟨b, _ | ⟨c, _ | ⟨d, _ | ⟨e, _ | ⟨f, _ | ⟨g, _ | ⟨h, _ | ⟨i, gs⟩⟩⟩⟩⟩⟩⟩⟩⟩
  all_goals first | rfl | cases hlen

/-- The place of a field in the code is its place in the address. -/
theorem place_eq_iff (t : Ipv6) (i : ℕ) :
    codePlace i = stdPlace t.val.gap t.val.fields.length i ↔
      i = 0 ∨ (t.val.gap < i ∧ t.val.fields.length = 6) := by
  have hgap := one_le_gap t.val
  have hlen := (placed_groups t).1
  unfold codePlace stdPlace
  split_ifs <;> omega

/-- **The first groups of the code** are those of the address exactly if the groups that are not
zero are where the code puts them. -/
theorem groups_agree_iff {N : ℕ} (hN : N ≤ 8)
    (hcode : N = 8 ∨ ∀ i < t.val.fields.length, codePlace i < N) :
    (∀ k < N, (codeGroups t.val.fields).getD k 0 = t.group k) ↔ t.Aligned := by
  obtain ⟨hlen, hplaced⟩ := placed_groups t
  have hstd : Placed (stdPlace t.val.gap t.val.fields.length) (fieldValue t.val.fields)
      t.val.fields.length N t.group :=
    ⟨fun i hi hp => hplaced.at_place i hi (lt_of_lt_of_le hp hN),
      fun k hk => hplaced.elsewhere k (lt_of_lt_of_le hk hN)⟩
  have hagree := Placed.agree_iff strictMono_codePlace (strictMono_stdPlace _ _)
    (placed_codeGroups t.val.fields hN) hstd fun i hi => ?_
  · rw [hagree]
    constructor
    · intro h i hi hne
      exact (place_eq_iff t i).1 (h i hi hne)
    · intro h i hi hne
      exact (place_eq_iff t i).2 (h i hi hne)
  · rcases hcode with rfl | hcode
    · right
      unfold stdPlace
      split_ifs <;> omega
    · exact Or.inl (hcode i hi)

/-- A text with few fields has no groups behind those that are stored. -/
theorem aligned_of_few {N : ℕ} (hN : N ≤ 8) (hcode : ∀ i < t.val.fields.length, codePlace i < N)
    (hagree : ∀ k < N, (codeGroups t.val.fields).getD k 0 = t.group k) :
    t.Aligned ∧ ∀ k < 8, N ≤ k → t.group k = 0 := by
  have halign := (groups_agree_iff hN (Or.inr hcode)).1 hagree
  refine ⟨halign, ?_⟩
  intro k hk hle
  rw [← (groups_agree_iff le_rfl (Or.inl rfl)).2 halign k hk]
  exact (placed_codeGroups t.val.fields le_rfl).elsewhere k hk fun i hi =>
    (lt_of_lt_of_le (hcode i hi) hle).ne

/-- The groups two fields can be in. -/
theorem codePlace_lt {i m : ℕ} (h : i < 2 * (m + 1)) : codePlace i < 2 * m + 4 := by
  unfold codePlace
  split_ifs <;> omega

/-- **The four numbers** are the address exactly if the text fits; where there are too few fields,
the empty text is stored. -/
theorem numbers_exact_iff {w w' : List UInt8}
    (hw : 2 < t.val.fields.length →
      w = networkBytes (fieldValue t.val.fields 2) (fieldValue t.val.fields 3))
    (hw0 : t.val.fields.length ≤ 2 → tool.store (.text []) = some w)
    (hw' : 4 < t.val.fields.length →
      w' = networkBytes (fieldValue t.val.fields 4) (fieldValue t.val.fields 5))
    (hw0' : t.val.fields.length ≤ 4 → tool.store (.text []) = some w') :
    (networkBytes (fieldValue t.val.fields 0) 0 = networkBytes (t.group 0) (t.group 1) ∧
      networkBytes (fieldValue t.val.fields 1) 0 = networkBytes (t.group 2) (t.group 3) ∧
      w = networkBytes (t.group 4) (t.group 5) ∧ w' = networkBytes (t.group 6) (t.group 7)) ↔
      t.Fits tool := by
  have hv := fieldValue_lt t
  have hg := group_lt t
  have hzero : networkBytes 0 0 = [0, 0, 0, 0] := rfl
  constructor
  · rintro ⟨hn0, hn1, hn2, hn3⟩
    obtain ⟨h0, h1⟩ := networkBytes_inj (hv 0) (Nat.zero_lt_succ _) (hg 0) (hg 1) hn0
    obtain ⟨h2, h3⟩ := networkBytes_inj (hv 1) (Nat.zero_lt_succ _) (hg 2) (hg 3) hn1
    rcases Nat.lt_or_ge 2 t.val.fields.length with hmany | hfew
    · rw [hw hmany] at hn2
      obtain ⟨h4, h5⟩ := networkBytes_inj (hv 2) (hv 3) (hg 4) (hg 5) hn2
      rcases Nat.lt_or_ge 4 t.val.fields.length with hmany' | hfew'
      · rw [hw' hmany'] at hn3
        obtain ⟨h6, h7⟩ := networkBytes_inj (hv 4) (hv 5) (hg 6) (hg 7) hn3
        refine ⟨(groups_agree_iff le_rfl (Or.inl rfl)).1 ?_, fun h => absurd hmany' (by omega)⟩
        intro k hk
        interval_cases k
        exacts [h0, h1, h2, h3, h4, h5, h6, h7]
      · have hcode : ∀ i < t.val.fields.length, codePlace i < 6 := fun i hi =>
          codePlace_lt (m := 1) (by omega)
        obtain ⟨halign, hrest⟩ := aligned_of_few (by omega) hcode (by
          intro k hk
          interval_cases k
          exacts [h0, h1, h2, h3, h4, h5])
        rw [hrest 6 (by omega) (by omega), hrest 7 (by omega) (by omega), hzero] at hn3
        exact ⟨halign, fun h => hn3 ▸ hw0' h⟩
    · have hcode : ∀ i < t.val.fields.length, codePlace i < 4 := fun i hi =>
        codePlace_lt (m := 0) (by omega)
      obtain ⟨halign, hrest⟩ := aligned_of_few (by omega) hcode (by
        intro k hk
        interval_cases k
        exacts [h0, h1, h2, h3])
      rw [hrest 4 (by omega) (by omega), hrest 5 (by omega) (by omega), hzero] at hn2
      exact ⟨halign, fun _ => hn2 ▸ hw0 hfew⟩
  · rintro ⟨halign, hstore⟩
    have hall := (groups_agree_iff le_rfl (Or.inl rfl)).2 halign
    have hgroups : ∀ k < 8, t.group k = (codeGroups t.val.fields).getD k 0 := fun k hk =>
      (hall k hk).symm
    rw [hgroups 0 (by omega), hgroups 1 (by omega), hgroups 2 (by omega), hgroups 3 (by omega),
      hgroups 4 (by omega), hgroups 5 (by omega), hgroups 6 (by omega), hgroups 7 (by omega)]
    refine ⟨rfl, rfl, ?_, ?_⟩
    · show w = networkBytes (fieldValue t.val.fields 2) (fieldValue t.val.fields 3)
      rcases Nat.lt_or_ge 2 t.val.fields.length with hmany | hfew
      · exact hw hmany
      · rw [fieldValue_of_ge hfew, fieldValue_of_ge (Nat.le_succ_of_le hfew), hzero]
        have hboth := (hw0 hfew).symm.trans (hstore (by omega))
        exact Option.some.inj hboth
    · show w' = networkBytes (fieldValue t.val.fields 4) (fieldValue t.val.fields 5)
      rcases Nat.lt_or_ge 4 t.val.fields.length with hmany | hfew
      · exact hw' hmany
      · rw [fieldValue_of_ge hfew, fieldValue_of_ge (Nat.le_succ_of_le hfew), hzero]
        have hboth := (hw0' hfew).symm.trans (hstore hfew)
        exact Option.some.inj hboth

end Groups

/-! ### The values of a port -/

section Port

variable {tool : SubregionCapsule} {region : List UInt8} {port : ℕ}

/-- The values are in the region from `port` on. -/
def StoredAt (tool : SubregionCapsule) (region : List UInt8) (port : ℕ) (vs : List Value) : Prop :=
  ∀ {j : ℕ} {v : Value}, vs[j]? = some v → tool.store v = some (slice region (port + 4 * j) 4)

theorem length_dnssrvAdd {before : List Value} (h : before.length = 4) (net : Network) :
    (dnssrvAdd before net).length = 4 := by
  cases net with
  | static e =>
      show (if 0 < e.dns.length then dnsLoop e.dns (List.replicate 4 (.number 0))
        else before).length = 4
      by_cases hdns : 0 < e.dns.length
      · rw [if_pos hdns]
        exact length_setServers e.dns 0 _
      · rw [if_neg hdns]
        exact h
  | dhcp => exact h

/-- The servers that were entered are in the array. -/
theorem getElem?_dnssrvAdd (before : List Value) (e : StaticEntry) {k : ℕ}
    (hk : k < e.dns.length) : (dnssrvAdd before (.static e))[k]? =
      e.dns[k]?.map fun ip => .text (ipPositioning ip.val) := by
  have hpos : 0 < e.dns.length := by omega
  have hle := e.length_dns
  show (if 0 < e.dns.length then dnsLoop e.dns (List.replicate 4 (.number 0)) else before)[k]? = _
  rw [if_pos hpos, getElem?_dnsLoop (by rw [List.length_replicate]; omega), if_pos hk]

/-- Four parts of a file. -/
theorem slice_eq_iff {a : ℕ} {b0 b1 b2 b3 : List UInt8} (h0 : (slice region a 4).length = b0.length)
    (h1 : (slice region (a + 4) 4).length = b1.length)
    (h2 : (slice region (a + 8) 4).length = b2.length) :
    slice region a 16 = b0 ++ (b1 ++ (b2 ++ b3)) ↔ slice region a 4 = b0 ∧
      slice region (a + 4) 4 = b1 ∧ slice region (a + 8) 4 = b2 ∧ slice region (a + 12) 4 = b3 := by
  have hsplit : slice region a 16 = slice region a 4 ++ (slice region (a + 4) 4 ++
      (slice region (a + 8) 4 ++ slice region (a + 12) 4)) := by
    rw [slice_add region a 4 12, slice_add region (a + 4) 4 8, slice_add region (a + 8) 4 4]
  rw [hsplit]
  constructor
  · intro h
    obtain ⟨e0, h⟩ := List.append_inj h h0
    obtain ⟨e1, h⟩ := List.append_inj h h1
    obtain ⟨e2, e3⟩ := List.append_inj h h2
    exact ⟨e0, e1, e2, e3⟩
  · rintro ⟨rfl, rfl, rfl, rfl⟩
    rfl

/-- **The IPv6 address of a port** is the one that was entered exactly if it fits. -/
theorem ipv6_eq_iff {bdf : Text} {add : List Value} {e : StaticEntry}
    (h : StoredAt tool region port (portFields bdf add (.static e))) :
    slice region (port + 16) 16 = e.ipv6.val.address ↔ e.ipv6.Fits tool := by
  have hs0 : tool.store (.text (upper (['0', '0', '0', '0'] ++
      swapped (e.ipv6.val.fields.map padField) 0))) = some (slice region (port + 16) 4) :=
    h (j := 4) rfl
  have hs1 : tool.store (.text (upper (['0', '0', '0', '0'] ++
      swapped (e.ipv6.val.fields.map padField) 1))) = some (slice region (port + 20) 4) :=
    h (j := 5) rfl
  have hs2 : tool.store (.text (upper (swapped (e.ipv6.val.fields.map padField) 3 ++
      swapped (e.ipv6.val.fields.map padField) 2))) = some (slice region (port + 24) 4) :=
    h (j := 6) rfl
  have hs3 : tool.store (.text (upper (swapped (e.ipv6.val.fields.map padField) 5 ++
      swapped (e.ipv6.val.fields.map padField) 4))) = some (slice region (port + 28) 4) :=
    h (j := 7) rfl
  rw [address_eq, slice_eq_iff (tool.length_store hs0) (tool.length_store hs1)
    (tool.length_store hs2)]
  have hw0 := tool.store_text (isHexNumber_single e.ipv6 0)
  have hw1 := tool.store_text (isHexNumber_single e.ipv6 1)
  rw [hs0, leBytes_single] at hw0
  rw [hs1, leBytes_single] at hw1
  rw [Option.some.inj hw0, Option.some.inj hw1]
  refine numbers_exact_iff ?_ ?_ ?_ ?_
  · intro hk
    have hw := tool.store_text (isHexNumber_pair e.ipv6 hk)
    rw [hs2, leBytes_pair e.ipv6 hk] at hw
    exact Option.some.inj hw
  · intro hk
    rwa [pair_of_ge e.ipv6 hk] at hs2
  · intro hk
    have hw := tool.store_text (isHexNumber_pair e.ipv6 hk)
    rw [hs3, leBytes_pair e.ipv6 hk] at hw
    exact Option.some.inj hw
  · intro hk
    rwa [pair_of_ge e.ipv6 hk] at hs3

/-- **The addresses of a port** are those that were entered exactly if the IPv6 address fits. -/
theorem staticAddresses_eq_iff {bdf : Text} {add : List Value} {e : StaticEntry}
    (h : StoredAt tool region port (portFields bdf add (.static e))) :
    staticAddresses region port = (Network.static e).static? ↔ e.ipv6.Fits tool := by
  have hstatic : word region (port + 8) = 1 := word_of_store (by decide) (h (j := 2) rfl)
  have hipv4 : slice region (port + 12) 4 = e.ipv4.address := slice_of_store (h (j := 3) rfl)
  have hmask : slice region (port + 32) 4 = e.subnet.address := slice_of_store (h (j := 8) rfl)
  have hgw : slice region (port + 36) 4 = e.gateway.address := slice_of_store (h (j := 9) rfl)
  rw [← ipv6_eq_iff h]
  unfold staticAddresses Network.static?
  rw [hstatic, if_pos one_ne_zero, hipv4, hmask, hgw, Option.some_inj, StaticAddresses.mk.injEq]
  exact and_iff_left ⟨rfl, rfl, rfl⟩

/-- **The servers of a port** are those that were entered. -/
theorem dnsServers_static {bdf : Text} {before : List Value} {e : StaticEntry}
    (hbefore : before.length = 4) (h : StoredAt tool region port
      (portFields bdf (dnssrvAdd before (.static e)) (.static e))) :
    dnsServers region port = (Network.static e).dns := by
  have hle := e.length_dns
  have hlen := length_dnssrvAdd hbefore (.static e)
  have hadd : ∀ {k : ℕ} {v : Value}, (dnssrvAdd before (.static e))[k]? = some v →
      tool.store v = some (slice region (port + 44 + 4 * k) 4) := by
    intro k v hv
    have hj : (portFields bdf (dnssrvAdd before (.static e)) (.static e))[11 + k]? = some v := by
      show (_ ++ dnssrvAdd before (.static e) ++ [Value.number 0, Value.number 0])[11 + k]? = some v
      obtain ⟨hk, -⟩ := List.getElem?_eq_some_iff.1 hv
      rw [List.append_assoc, List.getElem?_append_right (Nat.le_add_right 11 k)]
      show (dnssrvAdd before (.static e) ++ [Value.number 0, Value.number 0])[11 + k - 11]? = _
      rw [Nat.add_sub_cancel_left, List.getElem?_append_left hk, hv]
    have hoff : port + 4 * (11 + k) = port + 44 + 4 * k := by omega
    rw [← hoff]
    exact h hj
  have hnum : word region (port + 40) = e.dns.length :=
    word_of_store (by omega) (h (j := 10) rfl)
  unfold dnsServers
  rw [hnum, Nat.min_eq_left hle]
  show _ = e.dns.map Ipv4.address
  refine List.ext_getElem (by rw [List.length_map, List.length_map, List.length_range]) ?_
  intro k hk _
  rw [List.length_map, List.length_range] at hk
  have hget := getElem?_dnssrvAdd before e hk
  rw [List.getElem?_eq_getElem hk, Option.map_some] at hget
  rw [List.getElem_map, List.getElem_range, List.getElem_map]
  exact slice_of_store (hadd hget)

/-- The addresses of a port that is not static. -/
theorem staticAddresses_dhcp {bdf : Text} {add : List Value}
    (h : StoredAt tool region port (portFields bdf add .dhcp)) :
    staticAddresses region port = none ∧ dnsServers region port = [] := by
  have hstatic : word region (port + 8) = 0 := word_of_store (by decide) (h (j := 2) rfl)
  have hdns : word region (port + 40) = 0 := word_of_store (by decide) (h (j := 10) rfl)
  unfold staticAddresses dnsServers
  rw [hstatic, hdns]
  exact ⟨rfl, rfl⟩

end Port

/-! ### The file as a whole -/

section File

variable {tool : SubregionCapsule} {c : IpEntries} {region : List UInt8}

/-- The array behind the questions for the first port, and for the second one. -/
def arrays (c : IpEntries) : List Value × List Value :=
  let add0 := dnssrvAdd (List.replicate 4 (.number 0)) c.gbe0
  (add0, dnssrvAdd add0 c.gbe1)

theorem length_portFields (bdf : Text) {add : List Value} (h : add.length = 4) (net : Network) :
    (portFields bdf add net).length = 17 := by
  cases net with
  | static e =>
      unfold portFields
      rw [List.length_append, List.length_append, h]
      rfl
  | dhcp => rfl

/-- The values of a part of a file. -/
theorem storedAt_of_storeAll {front vs rest : List Value} {n : ℕ}
    (h : tool.storeAll (front ++ (vs ++ rest)) = some region) (hn : front.length = n) :
    StoredAt tool region (4 * n) vs := by
  intro j v hv
  obtain ⟨hj, -⟩ := List.getElem?_eq_some_iff.1 hv
  have hget : (front ++ (vs ++ rest))[n + j]? = some v := by
    rw [List.getElem?_append_right (by omega), hn, Nat.add_sub_cancel_left,
      List.getElem?_append_left hj, hv]
  rw [← Nat.mul_add]
  exact store_of_storeAll h hget

/-- **The ports are in the region.** -/
theorem storedAt_ports (h : ipRegion tool c = some region) : word region 4 = 2 ∧
    StoredAt tool region 8
      (portFields ['0', '0', '0', 'E', '9', '0', '0', '0'] (arrays c).1 c.gbe0) ∧
    StoredAt tool region 76
      (portFields ['0', '0', '0', 'E', 'A', '0', '0', '0'] (arrays c).2 c.gbe1) := by
  have hlen0 : (arrays c).1.length = 4 := length_dnssrvAdd rfl c.gbe0
  have hport := length_portFields ['0', '0', '0', 'E', '9', '0', '0', '0'] hlen0 c.gbe0
  have hfile : tool.storeAll ([.number 1, .number 2] ++
      portFields ['0', '0', '0', 'E', '9', '0', '0', '0'] (arrays c).1 c.gbe0 ++
      portFields ['0', '0', '0', 'E', 'A', '0', '0', '0'] (arrays c).2 c.gbe1 ++ unusedFields ++
      unusedFields) = some region := h
  refine ⟨word_of_store (by decide) (store_of_storeAll hfile (k := 1) rfl), ?_, ?_⟩
  · rw [List.append_assoc, List.append_assoc, List.append_assoc] at hfile
    exact storedAt_of_storeAll hfile rfl
  · rw [List.append_assoc, List.append_assoc] at hfile
    refine storedAt_of_storeAll hfile (n := 19) ?_
    rw [List.length_append, hport]
    rfl

/-- **What is given to the network stack for a port.** -/
theorem port_spec {port : ℕ} {bdf : Text} {before : List Value} {net : Network}
    (hbdf : IsHexNumber bdf) (hbefore : before.length = 4)
    (h : StoredAt tool region port (portFields bdf (dnssrvAdd before net) net)) :
    word region port = numeral 16 bdf ∧ word region (port + 4) = 1 ∧
      dnsServers region port = net.dns ∧
      (staticAddresses region port = net.static? ↔ net.Fits tool) := by
  cases net with
  | static e =>
      exact ⟨word_of_store_text hbdf (h (j := 0) rfl), word_of_store (by decide) (h (j := 1) rfl),
        dnsServers_static hbefore h, staticAddresses_eq_iff h⟩
  | dhcp =>
      obtain ⟨hnone, hdns⟩ := staticAddresses_dhcp h
      exact ⟨word_of_store_text hbdf (h (j := 0) rfl), word_of_store (by decide) (h (j := 1) rfl),
        hdns, iff_of_true hnone trivial⟩

theorem filterMap_two {α β γ : Type} {f : α → Option γ} {g : β → Option γ} {a a' : α} {b b' : β}
    (h : f a = g b) (h' : f a' = g b') : [a, a'].filterMap f = [b, b'].filterMap g := by
  simp only [List.filterMap_cons, List.filterMap_nil, h, h']

/-- **What is given to the network stack.** -/
theorem ipConfigInit_eq (h : ipRegion tool c = some region) (pciport2Iface : ℕ → Option ℕ) :
    ipConfigInit pciport2Iface region =
      [(0xE9000, staticAddresses region 8, c.gbe0.dns),
        (0xEA000, staticAddresses region 76, c.gbe1.dns)].filterMap fun port =>
          (pciport2Iface port.1).map fun iface => ⟨iface, port.2.1, port.2.2⟩ := by
  obtain ⟨hnum, h0, h1⟩ := storedAt_ports h
  obtain ⟨hbdf0, hvalid0, hdns0, _⟩ := port_spec (by decide) rfl h0
  obtain ⟨hbdf1, hvalid1, hdns1, _⟩ := port_spec (by decide) (length_dnssrvAdd rfl c.gbe0) h1
  unfold ipConfigInit
  rw [hnum, if_neg (by decide)]
  refine filterMap_two ?_ ?_
  · show (if word region 12 = 0 then none else (pciport2Iface (word region 8)).map fun iface =>
      IpSetup.mk iface (staticAddresses region 8) (dnsServers region 8)) = _
    rw [if_neg (by rw [hvalid0]; decide), hbdf0, hdns0]
    rfl
  · show (if word region 80 = 0 then none else (pciport2Iface (word region 76)).map fun iface =>
      IpSetup.mk iface (staticAddresses region 76) (dnsServers region 76)) = _
    rw [if_neg (by rw [hvalid1]; decide), hbdf1, hdns1]
    rfl

/-! ### The region exists -/

theorem isSome_number {n : ℕ} (h : n < 2 ^ 32) : (tool.store (.number n)).isSome := by
  rw [tool.store_number h]
  rfl

theorem isSome_text {t : Text} (h : IsHexNumber t) : (tool.store (.text t)).isSome := by
  rw [tool.store_text h]
  rfl

theorem isSome_dnssrvAdd {before : List Value} (h : ∀ v ∈ before, (tool.store v).isSome)
    (net : Network) : ∀ v ∈ dnssrvAdd before net, (tool.store v).isSome := by
  have hset : ∀ {servers : List Ipv4} {start : ℕ} {v : Value},
      v ∈ setServers servers start (List.replicate 4 (.number 0)) → (tool.store v).isSome := by
    intro servers start v hv
    induction servers generalizing start with
    | nil =>
        rw [List.eq_of_mem_replicate hv]
        exact isSome_number (by decide)
    | cons ip servers ih =>
        rw [setServers_cons] at hv
        rcases List.mem_or_eq_of_mem_set hv with hv | rfl
        · exact ih hv
        · exact isSome_text (isHexNumber_ipPositioning ip)
  intro v hv
  cases net with
  | static e =>
      change v ∈ (if 0 < e.dns.length then dnsLoop e.dns (List.replicate 4 (.number 0))
        else before) at hv
      by_cases hdns : 0 < e.dns.length
      · rw [if_pos hdns] at hv
        exact hset hv
      · rw [if_neg hdns] at hv
        exact h v hv
  | dhcp => exact h v hv

/-- The numbers of an address that fits can be stored. -/
theorem isSome_pair {t : Ipv6} {k : ℕ} (hk : k ≤ 4) (h : t.Fits tool) :
    (tool.store (.text (upper (swapped (t.val.fields.map padField) (k + 1) ++
      swapped (t.val.fields.map padField) k)))).isSome := by
  rcases Nat.lt_or_ge k t.val.fields.length with hlt | hge
  · exact isSome_text (isHexNumber_pair t hlt)
  · rw [pair_of_ge t hge, h.2 (by omega)]
    rfl

theorem isSome_portFields {bdf : Text} {add : List Value} {net : Network} (hbdf : IsHexNumber bdf)
    (hadd : ∀ v ∈ add, (tool.store v).isSome) (h : net.Fits tool) :
    ∀ v ∈ portFields bdf add net, (tool.store v).isSome := by
  have hnum : ∀ {n : ℕ}, n < 2 ^ 32 → (tool.store (.number n)).isSome := isSome_number
  cases net with
  | static e =>
      have hle := e.length_dns
      have hip : ∀ ip : Ipv4, (tool.store (.text (ipPositioning ip.val))).isSome := fun ip =>
        isSome_text (isHexNumber_ipPositioning ip)
      unfold portFields ipv6Positioning
      simp only [List.map_cons, List.map_nil, List.forall_mem_append, List.forall_mem_cons,
        List.not_mem_nil, false_implies, implies_true, and_true]
      exact ⟨⟨⟨⟨⟨isSome_text hbdf, hnum (by decide), hnum (by decide), hip e.ipv4⟩,
        isSome_text (isHexNumber_single e.ipv6 0), isSome_text (isHexNumber_single e.ipv6 1),
        isSome_pair (by omega) h, isSome_pair (by omega) h⟩,
        hip e.subnet, hip e.gateway, hnum (by omega)⟩, hadd⟩, hnum (by decide), hnum (by decide)⟩
  | dhcp =>
      unfold portFields
      simp only [List.forall_mem_append, List.forall_mem_cons, List.not_mem_nil, false_implies,
        implies_true, and_true]
      refine ⟨⟨isSome_text hbdf, hnum (by decide)⟩, ?_⟩
      intro v hv
      rw [List.eq_of_mem_replicate hv]
      exact hnum (by decide)

theorem exists_ipRegion (h0 : c.gbe0.Fits tool) (h1 : c.gbe1.Fits tool) :
    ∃ region, ipRegion tool c = some region := by
  have hnum : ∀ {n : ℕ}, n < 2 ^ 32 → (tool.store (.number n)).isSome := isSome_number
  have hzero : ∀ v ∈ List.replicate 4 (Value.number 0), (tool.store v).isSome := by
    intro v hv
    rw [List.eq_of_mem_replicate hv]
    exact hnum (by decide)
  have hadd0 := isSome_dnssrvAdd hzero c.gbe0
  have hadd1 := isSome_dnssrvAdd hadd0 c.gbe1
  have hunused : ∀ v ∈ unusedFields, (tool.store v).isSome := by
    intro v hv
    rcases List.mem_cons.1 hv with rfl | hv
    · exact isSome_text (by decide)
    · rw [List.eq_of_mem_replicate hv]
      exact hnum (by decide)
  refine exists_storeAll ?_
  unfold ipFile
  simp only [List.forall_mem_append, List.forall_mem_cons, List.not_mem_nil, false_implies,
    implies_true, and_true]
  exact ⟨⟨⟨⟨⟨hnum (by decide), hnum (by decide)⟩, isSome_portFields (by decide) hadd0 h0⟩,
    isSome_portFields (by decide) hadd1 h1⟩, hunused⟩, hunused⟩

/-- The addresses of the two ports. -/
theorem ports_spec (h : ipRegion tool c = some region) :
    (staticAddresses region 8 = c.gbe0.static? ↔ c.gbe0.Fits tool) ∧
    (staticAddresses region 76 = c.gbe1.static? ↔ c.gbe1.Fits tool) := by
  obtain ⟨_, h0, h1⟩ := storedAt_ports h
  exact ⟨(port_spec (by decide) rfl h0).2.2.2,
    (port_spec (by decide) (length_dnssrvAdd rfl c.gbe0) h1).2.2.2⟩

/-- Addresses that arrive fit. -/
theorem fits_of_addressesExact (hexact : AddressesExact tool c) :
    c.gbe0.Fits tool ∧ c.gbe1.Fits tool := by
  -- With an interface for every device both ports are set up.
  obtain ⟨region, h, heq⟩ := hexact fun _ => some 0
  rw [ipConfigInit_eq h] at heq
  have heq' : [IpSetup.mk 0 (staticAddresses region 8) c.gbe0.dns,
      IpSetup.mk 0 (staticAddresses region 76) c.gbe1.dns] =
      [IpSetup.mk 0 c.gbe0.static? c.gbe0.dns, IpSetup.mk 0 c.gbe1.static? c.gbe1.dns] := heq
  rw [List.cons.injEq, List.cons.injEq, IpSetup.mk.injEq, IpSetup.mk.injEq] at heq'
  exact ⟨(ports_spec h).1.1 heq'.1.2.1, (ports_spec h).2.1 heq'.2.1.2.1⟩

/-- **The addresses arrive** exactly if the IPv6 addresses fit. -/
theorem addressesExact_iff (tool : SubregionCapsule) (c : IpEntries) :
    AddressesExact tool c ↔ c.gbe0.Fits tool ∧ c.gbe1.Fits tool := by
  refine ⟨fits_of_addressesExact, ?_⟩
  rintro ⟨h0, h1⟩ pciport2Iface
  obtain ⟨region, h⟩ := exists_ipRegion h0 h1
  refine ⟨region, h, ?_⟩
  rw [ipConfigInit_eq h, (ports_spec h).1.2 h0, (ports_spec h).2.2 h1]
  rfl

end File

/-! ### A documentation address -/

/-- A tool that stores an empty text as zero. -/
def zeroTool : SubregionCapsule where
  store := fun v => match v with
    | .text t => some (Mem.leBytes 4 (numeral 16 t))
    | .number n => some (Mem.leBytes 4 n)
  length_store := by
    intro v bs h
    cases v <;> cases h <;> exact Mem.length_leBytes _ _
  store_text := fun _ => rfl
  store_number := fun _ => rfl

/-- `10.0.0.1`. -/
def someIpv4 : Ipv4 := ⟨['1', '0', '.', '0', '.', '0', '.', '1'], by decide⟩

/-- `2001:db8::1`. -/
def documentationIpv6 : Ipv6 :=
  ⟨.compressed [⟨['2', '0', '0', '1'], by decide⟩, ⟨['d', 'b', '8'], by decide⟩]
    [⟨['1'], by decide⟩] (by decide), by decide⟩

/-- The addresses of one port. -/
def documentationEntries : IpEntries where
  gbe0 := .static ⟨someIpv4, someIpv4, someIpv4, [], documentationIpv6, by decide⟩
  gbe1 := .dhcp
  distinct := by
    intro e e' _ h
    cases h

/-- The second group of `2001:db8::1` arrives as the third one. -/
theorem not_addressesExact_documentation : ¬ AddressesExact zeroTool documentationEntries := by
  intro hexact
  have hfits : documentationIpv6.Fits zeroTool := (fits_of_addressesExact hexact).1
  have hfields : documentationIpv6.val.fields =
      [['2', '0', '0', '1'], ['d', 'b', '8'], [], ['1']] :=
    Ipv6Text.fields_compressed _
  have hplace := hfits.1 1
  rw [hfields] at hplace
  revert hplace
  decide

end PseFw.Tsn
