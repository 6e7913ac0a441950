/-
**Device grants of the user mode applications.**

`user_app_init` creates one thread per application and gives it what the tables say.  Two tables
decide this.  `app_info_t` is the application's own: its entry function, its mode, the kernel
objects it names.  `global_resource_info` belongs to the image: an entry names an application id, a
priority and the devices that the application may use.  The entries stand in any order, and the
framework finds the entry of an application by a search for its id.

The grants of the devices are made in a second loop, over all entries.  That loop reads the id in
entry `i` and then serves the entry whose *index* is this id: its devices go to its own thread.  No
thread gets a device of another entry in this way, but an entry is served only when its index occurs
as an id somewhere in the table.  For a table that lists the ids `0, …, n - 1`, in whatever order,
this is no restriction; an application behind an index that is no id gets nothing.

Main definitions:

* `ResTable`, `AppInfo`, `Apps` — the two tables;
* `getUserAppResTable`, `initUserModeApp`, `grantDriverAccess`, `userAppInit` — the framework;
* `LeastPrivilege` — every thread has been granted the devices of its own entry and no others;
* `Served` — what the two tables have to satisfy.

Main results:

* `mem_grants_userAppInit` — **the grants after the initialisation**;
* `own_of_granted` — **no thread gets what is meant for another**;
* `leastPrivilege_iff` — **the grants are exact** for the tables that satisfy `Served` and for no
  others;
* `served_of_ids` — a table that lists every id satisfies it.
-/

import PseFw.Lib.Table
import Mathlib.Logic.Function.Basic
import Mathlib.Data.List.FinRange
import Mathlib.Data.List.Induction

set_option relaxedAutoImplicit false
set_option autoImplicit false

namespace PseFw.UserApp

/-! ### The tables -/

/-- An entry of `global_resource_info` as the image holds it.  `app_handle`, which the framework
fills in, stands in `Kernel`. -/
structure ResTable where
  appId : UInt8
  priority : Int8
  devList : List String
  devCnt : ℕ
  /-- The count stays inside the array of names. -/
  devCnt_le : devCnt ≤ devList.length
  deriving DecidableEq, Repr

/-- A kernel object: a device, or one of the other kinds. -/
inductive KObject (Dev Obj : Type)
  | device (d : Dev)
  | other (o : Obj)
  deriving DecidableEq, Repr

/-- `struct app_info_t`.  The weak definition has no `user_app_main` and no handle. -/
structure AppInfo (Thread Dev Obj : Type) where
  mode : UInt32
  objList : List (KObject Dev Obj)
  userAppMain : Bool
  appHandle : Option Thread

/-- The applications `0, …, n - 1`, as `DEFINE_USER_MODE_APP` defines them: each has a thread
structure of its own. -/
structure Apps (n : ℕ) (Thread Dev Obj : Type) where
  info : Fin n → AppInfo Thread Dev Obj
  handle_of_main : ∀ j, (info j).userAppMain = true → (info j).appHandle.isSome = true
  handle_inj : ∀ i j t, (info i).appHandle = some t → (info j).appHandle = some t → i = j

/-- `USER_MODE_APP`. -/
abbrev userModeApp : UInt32 := 1
/-- `USER_MODE_SERVICE`. -/
abbrev userModeService : UInt32 := 2

/-- `K_PRIO_COOP(x)` of a kernel with `coop` cooperative priorities. -/
def kPrioCoop (coop x : Int) : Int := -(coop - x)

abbrev appBootPrio0 : Int := 0
abbrev appBootPrio9 : Int := 9
abbrev servBootPrio0 (coop : Int) : Int := kPrioCoop coop 1
abbrev servBootPrio9 (coop : Int) : Int := kPrioCoop coop 10

/-! ### The framework -/

section Framework

variable {n : ℕ} {Thread Dev Obj : Type}

/-- What the initialisation leaves: the threads that exist, the `app_handle` of every entry, and the
grants that were made. -/
structure Kernel (n : ℕ) (Thread Dev Obj : Type) where
  threads : List Thread
  appHandle : Fin n → Option Thread
  grants : List (Thread × KObject Dev Obj)

/-- The kernel before `user_app_init`. -/
def Kernel.boot : Kernel n Thread Dev Obj := ⟨[], fun _ => none, []⟩

/-- `get_user_app_res_table`: the index of the first entry with this id. -/
def getUserAppResTable (tab : Fin n → ResTable) (appId : ℕ) : Option (Fin n) :=
  (List.finRange n).find? fun i => (tab i).appId.toNat = appId

/-- `k_object_access_grant`.  A thread that the kernel does not know is granted nothing. -/
def kObjectAccessGrant (k : Kernel n Thread Dev Obj) (o : KObject Dev Obj) :
    Option Thread → Kernel n Thread Dev Obj
  | none => k
  | some t => { k with grants := k.grants ++ [(t, o)] }

/-- The checks that `init_user_mode_app` makes before it creates the thread. -/
def admitted (coop : Int) (a : AppInfo Thread Dev Obj) (e : ResTable) : Bool :=
  a.userAppMain &&
    !(a.mode &&& userModeService != 0 &&
      (e.priority.toInt < servBootPrio0 coop || servBootPrio9 coop < e.priority.toInt)) &&
    !(a.mode &&& userModeApp != 0 &&
      (e.priority.toInt < appBootPrio0 || appBootPrio9 < e.priority.toInt))

/-- `init_user_mode_app` for the application `j`. -/
def initUserModeApp (coop : Int) (tab : Fin n → ResTable) (apps : Apps n Thread Dev Obj)
    (k : Kernel n Thread Dev Obj) (j : Fin n) : Kernel n Thread Dev Obj :=
  match getUserAppResTable tab j with
  | none => k
  | some i =>
      if admitted coop (apps.info j) (tab i) then
        let k' : Kernel n Thread Dev Obj :=
          { k with
            threads := k.threads ++ (apps.info j).appHandle.toList
            appHandle := Function.update k.appHandle i (apps.info j).appHandle }
        (apps.info j).objList.foldl
          (fun k o => kObjectAccessGrant k o (apps.info j).appHandle) k'
      else k

/-- The inner loop of `grant_driver_access`: the devices of entry `e` go to the thread of entry
`e`. -/
def grantEntry (binding : String → Option Dev) (tab : Fin n → ResTable)
    (k : Kernel n Thread Dev Obj) (e : Fin n) : Kernel n Thread Dev Obj :=
  ((tab e).devList.take (tab e).devCnt).foldl
    (fun k name =>
      match binding name with
      | some d => kObjectAccessGrant k (.device d) (k.appHandle e)
      | none => k) k

/-- The body of the outer loop.  The entry that is served has the *id* in entry `i` as its index. -/
def grantRound (binding : String → Option Dev) (tab : Fin n → ResTable)
    (k : Kernel n Thread Dev Obj) (i : Fin n) : Kernel n Thread Dev Obj :=
  if h : (tab i).appId.toNat < n then
    if (tab ⟨(tab i).appId.toNat, h⟩).devCnt = 0 then k
    else grantEntry binding tab k ⟨(tab i).appId.toNat, h⟩
  else k

/-- `grant_driver_access`. -/
def grantDriverAccess (binding : String → Option Dev) (tab : Fin n → ResTable)
    (k : Kernel n Thread Dev Obj) : Kernel n Thread Dev Obj :=
  (List.finRange n).foldl (grantRound binding tab) k

/-- `user_app_init`: first every application, then the devices. -/
def userAppInit (coop : Int) (binding : String → Option Dev) (tab : Fin n → ResTable)
    (apps : Apps n Thread Dev Obj) : Kernel n Thread Dev Obj :=
  grantDriverAccess binding tab
    ((List.finRange n).foldl (initUserModeApp coop tab apps) Kernel.boot)

/-! ### What the tables ask for -/

/-- The existing devices that an entry lists. -/
def devices (binding : String → Option Dev) (e : ResTable) : List Dev :=
  (e.devList.take e.devCnt).filterMap binding

/-- **Every thread has been granted the existing devices of its own entry**, the one that
`get_user_app_res_table` returns for the id of the application, and no other thread has been granted
a device. -/
def LeastPrivilege (binding : String → Option Dev) (tab : Fin n → ResTable)
    (apps : Apps n Thread Dev Obj) (k : Kernel n Thread Dev Obj) : Prop :=
  ∀ t d, (t, .device d) ∈ k.grants ↔
    t ∈ k.threads ∧ ∃ j i : Fin n, (apps.info j).appHandle = some t ∧
      getUserAppResTable tab j = some i ∧ d ∈ devices binding (tab i)

/-- What exact grants take.  For every application whose thread is created, with the entry at index
`i`: the index is an id of the table, so that the second loop comes to this entry, or there is
nothing left to grant; and the application names no other device among its own objects. -/
def Served (coop : Int) (binding : String → Option Dev) (tab : Fin n → ResTable)
    (apps : Apps n Thread Dev Obj) : Prop :=
  ∀ (j i : Fin n), getUserAppResTable tab j = some i → admitted coop (apps.info j) (tab i) = true →
    ((∃ e, (tab e).appId.toNat = i) ∨
      ∀ d ∈ devices binding (tab i), .device d ∈ (apps.info j).objList) ∧
    ∀ d, .device d ∈ (apps.info j).objList → d ∈ devices binding (tab i)

/-! ### The applications -/

variable {coop : Int} {binding : String → Option Dev} {tab : Fin n → ResTable}
  {apps : Apps n Thread Dev Obj}

/-- The entry that is found has the id that was asked for. -/
theorem appId_of_get {j : ℕ} {i : Fin n} (h : getUserAppResTable tab j = some i) :
    (tab i).appId.toNat = j := by
  simpa using List.find?_some h

/-- The thread `t` of the application `j` is created, and the handle of entry `i` is set to it. -/
def Starts (coop : Int) (tab : Fin n → ResTable) (apps : Apps n Thread Dev Obj) (j i : Fin n)
    (t : Thread) : Prop :=
  getUserAppResTable tab j = some i ∧ admitted coop (apps.info j) (tab i) = true ∧
    (apps.info j).appHandle = some t

/-- An entry is the entry of one application. -/
theorem Starts.app_unique {j j' i : Fin n} {t t' : Thread} (h : Starts coop tab apps j i t)
    (h' : Starts coop tab apps j' i t') : j = j' :=
  Fin.ext ((appId_of_get h.1).symm.trans (appId_of_get h'.1))

/-- A thread is the thread of one application, which has one entry. -/
theorem Starts.unique {j j' i i' : Fin n} {t : Thread} (h : Starts coop tab apps j i t)
    (h' : Starts coop tab apps j' i' t) : j = j' ∧ i = i' := by
  have hj := apps.handle_inj j j' t h.2.2 h'.2.2
  subst hj
  exact ⟨rfl, Option.some.inj (h.1.symm.trans h'.1)⟩

/-- The objects of a list go to the thread, after what was granted before. -/
theorem foldl_grant (k : Kernel n Thread Dev Obj) (t : Thread) (os : List (KObject Dev Obj)) :
    os.foldl (fun k o => kObjectAccessGrant k o (some t)) k =
      { k with grants := k.grants ++ os.map fun o => (t, o) } := by
  induction os generalizing k with
  | nil => simp
  | cons o os ih =>
      rw [List.foldl_cons, ih]
      simp [kObjectAccessGrant]

/-- **What `init_user_mode_app` does**: nothing, or a thread with its handle and its objects. -/
theorem initUserModeApp_cases (k : Kernel n Thread Dev Obj) (j : Fin n) :
    (initUserModeApp coop tab apps k j = k ∧ ∀ i t, ¬ Starts coop tab apps j i t) ∨
    ∃ i t, Starts coop tab apps j i t ∧ initUserModeApp coop tab apps k j =
      { threads := k.threads ++ [t]
        appHandle := Function.update k.appHandle i (some t)
        grants := k.grants ++ (apps.info j).objList.map fun o => (t, o) } := by
  unfold initUserModeApp
  cases hget : getUserAppResTable tab j with
  | none =>
      refine Or.inl ⟨rfl, fun i t h => ?_⟩
      simp [h.1] at hget
  | some i =>
      by_cases hadm : admitted coop (apps.info j) (tab i) = true
      · have hmain : (apps.info j).userAppMain = true := by
          simp only [admitted, Bool.and_eq_true] at hadm
          exact hadm.1.1
        obtain ⟨t, ht⟩ := Option.isSome_iff_exists.1 (apps.handle_of_main j hmain)
        refine Or.inr ⟨i, t, ⟨hget, hadm, ht⟩, ?_⟩
        simp [hadm, ht, foldl_grant]
      · refine Or.inl ⟨by simp [hadm], fun i' t h => hadm ?_⟩
        rw [Option.some.inj (hget.symm.trans h.1)]
        exact h.2.1

/-- What the first loop has done when it has come through the applications `js`. -/
structure Inited (coop : Int) (tab : Fin n → ResTable) (apps : Apps n Thread Dev Obj)
    (js : List (Fin n)) (k : Kernel n Thread Dev Obj) : Prop where
  threads : ∀ t, t ∈ k.threads ↔ ∃ j ∈ js, ∃ i, Starts coop tab apps j i t
  handle : ∀ i t, k.appHandle i = some t ↔ ∃ j ∈ js, Starts coop tab apps j i t
  grants : ∀ t o, (t, o) ∈ k.grants ↔
    ∃ j ∈ js, (∃ i, Starts coop tab apps j i t) ∧ o ∈ (apps.info j).objList

/-- One application more. -/
theorem Inited.step {js : List (Fin n)} {k : Kernel n Thread Dev Obj}
    (h : Inited coop tab apps js k) (j : Fin n) :
    Inited coop tab apps (js ++ [j]) (initUserModeApp coop tab apps k j) := by
  rcases @initUserModeApp_cases n Thread Dev Obj coop tab apps k j with
    ⟨heq, hno⟩ | ⟨i, t, hst, heq⟩
  · rw [heq]
    refine ⟨fun t => ?_, fun i t => ?_, fun t o => ?_⟩
    · simp [h.threads, or_and_right, exists_or, hno]
    · simp [h.handle, or_and_right, exists_or, hno]
    · simp [h.grants, or_and_right, exists_or, hno]
  · rw [heq]
    have hiff : ∀ t', (∃ i', Starts coop tab apps j i' t') ↔ t' = t := fun t' =>
      ⟨fun ⟨i', h'⟩ => Option.some.inj (h'.2.2.symm.trans hst.2.2), fun h' => ⟨i, h' ▸ hst⟩⟩
    refine ⟨fun t' => ?_, fun i' t' => ?_, fun t' o => ?_⟩
    · simp [h.threads, or_and_right, exists_or, hiff]
    · by_cases hi : i' = i
      · -- the handle of this entry belongs to this application, before and after
        subst hi
        simp only [Function.update_self]
        constructor
        · intro ht
          exact ⟨j, by simp, Option.some.inj ht ▸ hst⟩
        · rintro ⟨j', -, hst'⟩
          have hj := hst.app_unique hst'
          subst hj
          exact hst.2.2.symm.trans hst'.2.2
      · have hne : ¬ Starts coop tab apps j i' t' := fun h' =>
          hi (Option.some.inj (h'.1.symm.trans hst.1))
        simp [Function.update_of_ne hi, h.handle, or_and_right, exists_or, hne]
    · simp only [List.mem_append, h.grants, List.mem_map, Prod.mk.injEq, List.mem_singleton,
        or_and_right, exists_or, exists_eq_left, hiff]
      refine or_congr Iff.rfl ⟨?_, ?_⟩
      · rintro ⟨o', ho, rfl, rfl⟩
        exact ⟨rfl, ho⟩
      · rintro ⟨rfl, ho⟩
        exact ⟨o, ho, rfl, rfl⟩

/-- The first loop. -/
theorem inited_foldl (js : List (Fin n)) : Inited coop tab apps js
    (js.foldl (initUserModeApp coop tab apps) Kernel.boot) := by
  induction js using List.reverseRecOn with
  | nil => exact ⟨by simp [Kernel.boot], by simp [Kernel.boot], by simp [Kernel.boot]⟩
  | append_singleton js j ih =>
      rw [List.foldl_append]
      exact ih.step j

/-! ### The devices -/

/-- The devices of an entry go to the thread of this entry, if it has one. -/
theorem grantEntry_eq (k : Kernel n Thread Dev Obj) (e : Fin n) :
    grantEntry binding tab k e =
      { k with
        grants := k.grants ++ (k.appHandle e).toList.flatMap fun t =>
          (devices binding (tab e)).map fun d => (t, .device d) } := by
  unfold grantEntry devices
  generalize (tab e).devList.take (tab e).devCnt = names
  induction names generalizing k with
  | nil =>
      cases hh : k.appHandle e with
      | none => simp
      | some t => simp
  | cons name names ih =>
      rw [List.foldl_cons, ih]
      cases hb : binding name with
      | none => simp [hb]
      | some d =>
          cases hh : k.appHandle e with
          | none => simp [hb, hh, kObjectAccessGrant]
          | some t => simp [hb, hh, kObjectAccessGrant]

/-- **One round**: the handles stay, and the thread of the entry at this index gets its devices. -/
theorem grantRound_spec (k : Kernel n Thread Dev Obj) (i : Fin n) :
    (grantRound binding tab k i).threads = k.threads ∧
    (grantRound binding tab k i).appHandle = k.appHandle ∧
    ∀ t o, (t, o) ∈ (grantRound binding tab k i).grants ↔ (t, o) ∈ k.grants ∨
      ∃ e : Fin n, (tab i).appId.toNat = e ∧ k.appHandle e = some t ∧
        ∃ d ∈ devices binding (tab e), o = .device d := by
  unfold grantRound
  by_cases h : (tab i).appId.toNat < n
  · rw [dif_pos h]
    by_cases hcnt : (tab ⟨(tab i).appId.toNat, h⟩).devCnt = 0
    · rw [if_pos hcnt]
      refine ⟨rfl, rfl, fun t o => ⟨Or.inl, ?_⟩⟩
      rintro (hin | ⟨e, he, -, d, hd, -⟩)
      · exact hin
      · have he' : e = ⟨(tab i).appId.toNat, h⟩ := Fin.ext he.symm
        subst he'
        simp [devices, hcnt] at hd
    · rw [if_neg hcnt, grantEntry_eq]
      refine ⟨rfl, rfl, fun t o => ?_⟩
      simp only [List.mem_append, List.mem_flatMap, Option.mem_toList, List.mem_map, Prod.mk.injEq]
      refine or_congr Iff.rfl ⟨?_, ?_⟩
      · rintro ⟨t', ht, d, hd, rfl, rfl⟩
        exact ⟨⟨(tab i).appId.toNat, h⟩, rfl, ht, d, hd, rfl⟩
      · rintro ⟨e, he, ht, d, hd, rfl⟩
        have he' : e = ⟨(tab i).appId.toNat, h⟩ := Fin.ext he.symm
        subst he'
        exact ⟨t, ht, d, hd, rfl, rfl⟩
  · rw [dif_neg h]
    refine ⟨rfl, rfl, fun t o => ⟨Or.inl, ?_⟩⟩
    rintro (hin | ⟨e, he, -⟩)
    · exact hin
    · exact absurd (he ▸ e.isLt) h

/-- **The second loop**: entries are served whose index is an id that the loop has read. -/
theorem foldl_grantRound_spec (k : Kernel n Thread Dev Obj) (is : List (Fin n)) :
    (is.foldl (grantRound binding tab) k).threads = k.threads ∧
    (is.foldl (grantRound binding tab) k).appHandle = k.appHandle ∧
    ∀ t o, (t, o) ∈ (is.foldl (grantRound binding tab) k).grants ↔ (t, o) ∈ k.grants ∨
      ∃ e : Fin n, (∃ i ∈ is, (tab i).appId.toNat = e) ∧ k.appHandle e = some t ∧
        ∃ d ∈ devices binding (tab e), o = .device d := by
  induction is using List.reverseRecOn with
  | nil => simp
  | append_singleton is i ih =>
      obtain ⟨hthreads, hhandle, hgrants⟩ := ih
      obtain ⟨hthreads', hhandle', hgrants'⟩ :=
        @grantRound_spec n Thread Dev Obj binding tab (is.foldl (grantRound binding tab) k) i
      rw [List.foldl_append, List.foldl_cons, List.foldl_nil]
      refine ⟨hthreads'.trans hthreads, hhandle'.trans hhandle, fun t o => ?_⟩
      rw [hgrants', hgrants, hhandle, or_assoc, ← exists_or]
      simp only [List.mem_append, List.mem_singleton, or_and_right, exists_or, exists_eq_left]

/-! ### The grants after the initialisation -/

/-- **The threads after the initialisation** are those of the applications that pass the checks. -/
theorem mem_threads_userAppInit {t : Thread} :
    t ∈ (userAppInit coop binding tab apps).threads ↔ ∃ j i, Starts coop tab apps j i t := by
  have h := @inited_foldl n Thread Dev Obj coop tab apps (List.finRange n)
  rw [userAppInit, grantDriverAccess, (foldl_grantRound_spec _ _).1, h.threads]
  simp

/-- **The grants after the initialisation**: a thread has the objects that its application names,
and the devices of its entry when the index of the entry is an id of the table. -/
theorem mem_grants_userAppInit {t : Thread} {o : KObject Dev Obj} :
    (t, o) ∈ (userAppInit coop binding tab apps).grants ↔
      ∃ j i, Starts coop tab apps j i t ∧ (o ∈ (apps.info j).objList ∨
        (∃ e, (tab e).appId.toNat = i) ∧ ∃ d ∈ devices binding (tab i), o = .device d) := by
  have h := @inited_foldl n Thread Dev Obj coop tab apps (List.finRange n)
  rw [userAppInit, grantDriverAccess, (foldl_grantRound_spec _ _).2.2, h.grants]
  simp only [h.handle, List.mem_finRange, true_and]
  constructor
  · rintro (⟨j, ⟨i, hst⟩, ho⟩ | ⟨i, hid, ⟨j, hst⟩, hd⟩)
    · exact ⟨j, i, hst, Or.inl ho⟩
    · exact ⟨j, i, hst, Or.inr ⟨hid, hd⟩⟩
  · rintro ⟨j, i, hst, ho | ⟨hid, hd⟩⟩
    · exact Or.inl ⟨j, ⟨i, hst⟩, ho⟩
    · exact Or.inr ⟨i, hid, ⟨j, hst⟩, hd⟩

/-- **No thread gets what is meant for another**: a device that was granted is listed in the
thread's own entry, or its application names it. -/
theorem own_of_granted {j i : Fin n} {t : Thread} {d : Dev} (hst : Starts coop tab apps j i t)
    (h : (t, .device d) ∈ (userAppInit coop binding tab apps).grants) :
    d ∈ devices binding (tab i) ∨ .device d ∈ (apps.info j).objList := by
  obtain ⟨j', i', hst', ho⟩ := mem_grants_userAppInit.1 h
  obtain ⟨rfl, rfl⟩ := hst.unique hst'
  rcases ho with ho | ⟨-, d', hd, heq⟩
  · exact Or.inr ho
  · cases heq
    exact Or.inl hd

/-- For one thread: what it should have, in terms of its entry. -/
theorem asked_iff {j i : Fin n} {t : Thread} (hst : Starts coop tab apps j i t) {d : Dev} :
    (t ∈ (userAppInit coop binding tab apps).threads ∧
      ∃ j i : Fin n, (apps.info j).appHandle = some t ∧ getUserAppResTable tab j = some i ∧
        d ∈ devices binding (tab i)) ↔ d ∈ devices binding (tab i) := by
  constructor
  · rintro ⟨-, j', i', hh, hget, hd⟩
    have hj := apps.handle_inj j' j t hh hst.2.2
    subst hj
    rwa [Option.some.inj (hst.1.symm.trans hget)]
  · intro hd
    exact ⟨mem_threads_userAppInit.2 ⟨j, i, hst⟩, j, i, hst.2.2, hst.1, hd⟩

/-- For one thread: what it has, in terms of its entry. -/
theorem granted_iff {j i : Fin n} {t : Thread} (hst : Starts coop tab apps j i t) {d : Dev} :
    (t, .device d) ∈ (userAppInit coop binding tab apps).grants ↔
      .device d ∈ (apps.info j).objList ∨
        (∃ e, (tab e).appId.toNat = i) ∧ d ∈ devices binding (tab i) := by
  rw [mem_grants_userAppInit]
  constructor
  · rintro ⟨j', i', hst', ho⟩
    obtain ⟨rfl, rfl⟩ := hst.unique hst'
    refine ho.imp id fun ⟨hid, d', hd, heq⟩ => ⟨hid, ?_⟩
    cases heq
    exact hd
  · rintro (ho | ⟨hid, hd⟩)
    · exact ⟨j, i, hst, Or.inl ho⟩
    · exact ⟨j, i, hst, Or.inr ⟨hid, d, hd, rfl⟩⟩

/-- **The grants are exact** for the tables that satisfy `Served`, and for no others. -/
theorem leastPrivilege_iff :
    LeastPrivilege binding tab apps (userAppInit coop binding tab apps) ↔
      Served coop binding tab apps := by
  constructor
  · intro h j i hget hadm
    have hmain : (apps.info j).userAppMain = true := by
      simp only [admitted, Bool.and_eq_true] at hadm
      exact hadm.1.1
    obtain ⟨t, ht⟩ := Option.isSome_iff_exists.1 (apps.handle_of_main j hmain)
    have hst : Starts coop tab apps j i t := ⟨hget, hadm, ht⟩
    have hiff : ∀ d, (.device d ∈ (apps.info j).objList ∨
        (∃ e, (tab e).appId.toNat = i) ∧ d ∈ devices binding (tab i)) ↔
          d ∈ devices binding (tab i) := fun d => by
      rw [← granted_iff hst, h t d, asked_iff hst]
    refine ⟨?_, fun d hd => (hiff d).1 (Or.inl hd)⟩
    by_cases hid : ∃ e, (tab e).appId.toNat = i
    · exact Or.inl hid
    · refine Or.inr fun d hd => ?_
      rcases (hiff d).2 hd with ho | ⟨hid', -⟩
      · exact ho
      · exact absurd hid' hid
  · intro h t d
    by_cases hex : ∃ j i, Starts coop tab apps j i t
    · obtain ⟨j, i, hst⟩ := hex
      obtain ⟨hall, honly⟩ := h j i hst.1 hst.2.1
      rw [granted_iff hst, asked_iff hst]
      refine ⟨fun hg => hg.elim (honly d) And.right, fun hd => ?_⟩
      rcases hall with hid | hobj
      · exact Or.inr ⟨hid, hd⟩
      · exact Or.inl (hobj d hd)
    · -- a thread that was not created has nothing and should have nothing
      rw [mem_grants_userAppInit, mem_threads_userAppInit]
      refine ⟨fun ⟨j, i, hst, _⟩ => absurd ⟨j, i, hst⟩ hex, fun ⟨hst, _⟩ => absurd hst hex⟩

/-- **A table that lists every id**, in whatever order, serves every entry: what is left is that the
applications name no devices beyond those of their entries. -/
theorem served_of_ids (hids : ∀ i : Fin n, ∃ e, (tab e).appId.toNat = i)
    (hobj : ∀ (j i : Fin n), getUserAppResTable tab j = some i → ∀ d,
      .device d ∈ (apps.info j).objList → d ∈ devices binding (tab i)) :
    Served coop binding tab apps := fun j i hget _ => ⟨Or.inl (hids i), hobj j i hget⟩

end Framework

/-! ### A table that leaves an application without its devices -/

/-- Three entries for the ids `0` and `2`; the last one is what the compiler fills in. -/
def gapTable : Fin 3 → ResTable := fun i =>
  if i.val = 0 then ⟨0, 1, [], 0, by decide⟩
  else if i.val = 1 then ⟨2, 1, ["I2C_0"], 1, by decide⟩
  else ⟨0, 0, [], 0, by decide⟩

/-- The applications `0` and `2`, without kernel objects of their own. -/
def gapApps : Apps 3 (Fin 3) Unit Unit where
  info := fun j => if j.val = 1 then ⟨0, [], false, none⟩ else ⟨userModeApp, [], true, some j⟩
  handle_of_main := by decide
  handle_inj := by decide

/-- The entry of application `2` stands at index `1`, and no entry has the id `1`: the thread is
created and the device exists, but the thread is not granted the device. -/
theorem not_leastPrivilege_gap :
    ¬ LeastPrivilege (fun _ => some ()) gapTable gapApps
      (userAppInit 16 (fun _ => some ()) gapTable gapApps) := by
  intro h
  have hnot : ((2 : Fin 3), KObject.device ()) ∉
      (userAppInit 16 (fun _ => some ()) gapTable gapApps).grants := by decide +kernel
  refine hnot ((h 2 ()).2 ⟨by decide +kernel, 2, 1, by decide, by decide +kernel, ?_⟩)
  decide

end PseFw.UserApp
