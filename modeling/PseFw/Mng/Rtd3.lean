/-
**The host goes to sleep.**

When the host sends `MNG_RTD3_NOTIFY`, the firmware answers whether it is ready for a host that does
not answer.  It must not say so while somebody has access to the host.  The answer is decided by the
semaphore `sem_rtd3`: there is one token, which is in the semaphore, with the holders of host
access, or with the firmware's promise to the host.

The token is not conserved.  `MNG_D0_NOTIFY` and the entry to Sx put one into the semaphore,
wherever the old one is.  After that the firmware promises what it should not.  Two holders with the
same handle have the same effect: the first of them to leave takes the other's bit with it, and the
semaphore is given too early.

Main definitions:

* `PseFw.Mng.Rtd3Safe` — no promise while there is access;
* `PseFw.Mng.Idle`, `PseFw.Mng.Rtd3Discipline` — when a token may be put into the semaphore;
* `PseFw.Mng.TokenInv` — there is one token.

Main results:

* `PseFw.Mng.tokenInv_step` — **a disciplined step keeps the token**;
* `PseFw.Mng.rtd3Safe_of_disciplined` — **the firmware never promises what it should not**, in every
  run in which nobody puts a second token into the semaphore.
-/

import PseFw.Mng.HostAccess

set_option relaxedAutoImplicit false
set_option autoImplicit false

namespace PseFw.Mng

/-! ### The promise -/

/-- No promise is made while somebody has access: neither by setting the pointer to
`mng_host_req_rtd3_notified` nor by the answer. -/
def MngEvent.Rtd3Ok : MngEvent → Prop
  | .notified inUse => inUse = []
  | .rtd3NotifyAck true inUse => inUse = []
  | _ => True

/-- **No promise was made while somebody had access.** -/
def Rtd3Safe (x : MngDev) : Prop := ∀ e ∈ x.log, e.Rtd3Ok

/-- Nobody has access or is about to get a handle, and no promise is on its way. -/
def Idle (x : MngDev) : Prop := x.held = [] ∧ ¬ x.AtAlloc ∧ ¬ x.Answering

instance (x : MngDev) : Decidable (Idle x) := inferInstanceAs (Decidable (_ ∧ _ ∧ _))

/-- **The discipline**: the callers keep to theirs, and `MNG_D0_NOTIFY` and the entry to Sx give the
semaphore only while nobody has access and no promise is on its way. -/
def Rtd3Discipline (x : MngDev) (l : MngLabel) : Prop :=
  AccessDiscipline x l ∧ (GivesRtd3 x l → Idle x)

instance : ∀ (x : MngDev) (l : MngLabel), Decidable (GivesRtd3 x l)
  | _, .rxInterrupt .d0Notify => .isTrue trivial
  | x, .sxStep => inferInstanceAs (Decidable (x.sx = .giveRtd3))
  | _, .rxInterrupt .rtd3Notify => .isFalse id
  | _, .lock _ => .isFalse id
  | _, .lockTimeout _ => .isFalse id
  | _, .reqStep => .isFalse id
  | _, .reqTimeout => .isFalse id
  | _, .dereq _ _ => .isFalse id
  | _, .rxTask => .isFalse id
  | _, .answerStep => .isFalse id
  | _, .rtd3Entry => .isFalse id
  | _, .rtd3Exit => .isFalse id
  | _, .d3Step => .isFalse id
  | _, .sxEntry => .isFalse id

instance (x : MngDev) (l : MngLabel) : Decidable (Rtd3Discipline x l) :=
  inferInstanceAs (Decidable (_ ∧ (_ → _)))

/-! ### The token -/

/-- **There is one token**: it is in the semaphore, or with a promise, or with the holders of host
access; and a thread that waits for it does so because it is not in the semaphore. -/
structure TokenInv (x : MngDev) : Prop where
  sem : x.semRtd3 = true → Idle x
  answering : x.Answering → x.held = [] ∧ ¬ x.AtAlloc
  pending : x.Pending → x.semRtd3 = false

namespace TokenInv

variable {overshift : BitVec 32} {x x' : MngDev}

theorem untouched (h : TokenInv x) (hu : Untouched x x') : TokenInv x' where
  sem hs := by
    obtain ⟨hheld, halloc, hans⟩ := h.sem (hu.semRtd3 ▸ hs)
    exact ⟨hu.held ▸ hheld, fun ha => halloc (hu.atAlloc ha), fun ha => hans (hu.answering ha)⟩
  answering ha := by
    obtain ⟨hheld, halloc⟩ := h.answering (hu.answering ha)
    exact ⟨hu.held ▸ hheld, fun ha => halloc (hu.atAlloc ha)⟩
  pending hp := by
    rw [hu.semRtd3]
    rcases hu.pending hp with hp | hs
    · exact h.pending hp
    · exact hs

/-- While somebody has access, the semaphore is not there and no promise is made. -/
theorem of_held (h : TokenInv x) (hheld : x.held ≠ []) : x.semRtd3 = false ∧ ¬ x.Answering := by
  refine ⟨?_, fun ha => hheld (h.answering ha).1⟩
  cases hs : x.semRtd3 with
  | false => rfl
  | true => exact absurd (h.sem hs).1 hheld

/-- While a thread is about to get a handle, likewise. -/
theorem of_atAlloc (h : TokenInv x) (ha : x.AtAlloc) : x.semRtd3 = false ∧ ¬ x.Answering := by
  refine ⟨?_, fun hans => (h.answering hans).2 ha⟩
  cases hs : x.semRtd3 with
  | false => rfl
  | true => exact absurd ha (h.sem hs).2.1

/-- The token is with the holders. -/
theorem of_taken (hs : x'.semRtd3 = false) (ha : ¬ x'.Answering) : TokenInv x' where
  sem h := by
    rw [hs] at h
    cases h
  answering h := absurd h ha
  pending _ := hs

/-- The last holder puts the token back. -/
theorem release (h : TokenInv x) (hheld : x.held ≠ []) (hin : x'.inside = none)
    (hipc : x'.ipc = x.ipc) (hlast : x'.semRtd3 = true → x'.held = []) : TokenInv x' := by
  obtain ⟨-, hans⟩ := h.of_held hheld
  have hans' : ¬ x'.Answering := by rwa [MngDev.Answering, hipc]
  have halloc : ¬ x'.AtAlloc := by
    rw [MngDev.AtAlloc, hin]
    simp
  refine ⟨fun hs => ⟨hlast hs, halloc, hans'⟩, fun ha => absurd ha hans', fun hp => ?_⟩
  rw [MngDev.Pending, hin] at hp
  cases hp

/-- A token is put where there is none. -/
theorem give (h : TokenInv x) (hidle : Idle x) (hheld : x'.held = x.held) (hipc : x'.ipc = x.ipc)
    (hg : Given x x') : TokenInv x' := by
  obtain ⟨hnone, halloc, hans⟩ := hidle
  have hans' : ¬ x'.Answering := by rwa [MngDev.Answering, hipc]
  rcases hg with ⟨hp, -, -, hs⟩ | ⟨hp, hin, -⟩
  · exact of_taken (hs.trans (h.pending hp)) hans'
  · have halloc' : ¬ x'.AtAlloc := by rwa [MngDev.AtAlloc, hin]
    have hpend' : ¬ x'.Pending := by rwa [MngDev.Pending, hin]
    exact ⟨fun _ => ⟨hheld.trans hnone, halloc', hans'⟩, fun ha => absurd ha hans',
      fun hp' => absurd hp' hpend'⟩

end TokenInv

/-- **A disciplined step keeps the token.** -/
theorem tokenInv_step {overshift : BitVec 32} {x x' : MngDev} {l : MngLabel} (ha : AccessInv x)
    (hx : TokenInv x) (hd : Rtd3Discipline x l) (h : mngStep overshift l x = some x') :
    TokenInv x' := by
  have hheld : x.rtd3ReqMap ≠ 0 → x.held ≠ [] := fun hz hnil =>
    hz (ha.map_eq_zero_iff.2 (by rw [MngDev.handles, hnil]; rfl))
  have ha' := accessInv_step ha hd.1 h
  cases mngStep_cases h with
  | untouched hu => exact hx.untouched hu
  | join t _ hz =>
      obtain ⟨hs, hans⟩ := hx.of_held (hheld hz)
      exact TokenInv.of_taken hs hans
  | take t _ hs => exact TokenInv.of_taken rfl (hx.sem hs).2.2
  | alloc t hin =>
      obtain ⟨hs, hans⟩ := hx.of_atAlloc (by rw [MngDev.AtAlloc, hin]; rfl)
      exact TokenInv.of_taken hs hans
  | release t n _ hle hbit hmap _ hin hipc hsem _ =>
      have hne : x.held ≠ [] := by
        refine hheld fun hz => ?_
        rw [hz] at hbit
        simp at hbit
      refine hx.release hne hin hipc fun hs => ?_
      rw [(hx.of_held hne).1, Bool.or_false] at hsem
      rw [hsem] at hs
      exact List.map_eq_nil_iff.1 (ha'.map_eq_zero_iff.1 (of_decide_eq_true hs))
  | ready _ hs =>
      obtain ⟨hnone, halloc, -⟩ := hx.sem hs
      exact ⟨fun hs' => absurd hs' (by simp), fun _ => ⟨hnone, halloc⟩, fun _ => rfl⟩
  | give hgives _ hh hipc _ hg => exact hx.give (hd.2 hgives) hh hipc hg

/-- **No step that is observed is a false promise.** -/
theorem Observed.rtd3Ok {x : MngDev} {e : MngEvent} (hx : TokenInv x) (h : Observed x e) :
    e.Rtd3Ok := by
  cases h with
  | refused t ret => trivial
  | rejected t handler => trivial
  | triggerPme => trivial
  | d0NotifyAck => trivial
  | notified hipc =>
      show x.held.map Prod.snd = []
      rw [(hx.answering (Or.inl hipc)).1]
      rfl
  | rtd3NotifyAck r hipc =>
      cases r with
      | false => trivial
      | true =>
          show x.held.map Prod.snd = []
          rw [(hx.answering (Or.inr hipc)).1]
          rfl

theorem rtd3Safe_step {overshift : BitVec 32} {x x' : MngDev} {l : MngLabel} (hx : TokenInv x)
    (hs : Rtd3Safe x) (h : mngStep overshift l x = some x') : Rtd3Safe x' := by
  have happend : ∀ evs : List MngEvent, x'.log = x.log ++ evs → (∀ e ∈ evs, e.Rtd3Ok) →
      Rtd3Safe x' := by
    intro evs hlog hevs e he
    rw [hlog] at he
    rcases List.mem_append.1 he with he | he
    · exact hs e he
    · exact hevs e he
  cases mngStep_cases h with
  | untouched hu =>
      obtain ⟨evs, hlog, hevs⟩ := hu.log
      exact happend evs hlog fun e he => (hevs e he).rtd3Ok hx
  | join t _ _ => exact hs
  | take t _ _ => exact hs
  | alloc t _ => exact happend _ rfl (by simp [MngEvent.Rtd3Ok])
  | release t n _ _ _ _ _ _ _ _ hlog => exact happend _ hlog (by simp [MngEvent.Rtd3Ok])
  | ready _ _ => exact hs
  | give _ _ _ _ hlog _ => exact happend [] (by simpa using hlog) (by simp)

/-- The invariant of the whole run. -/
structure Rtd3Inv (x : MngDev) : Prop where
  access : AccessInv x
  token : TokenInv x
  safe : Rtd3Safe x

theorem rtd3Inv_start : Rtd3Inv MngDev.start where
  access := accessInv_start
  token := ⟨fun _ => by decide, fun h => absurd h (by decide), fun h => absurd h (by decide)⟩
  safe := by simp [Rtd3Safe, MngDev.start]

/-- **The firmware never promises what it should not**: in no run in which the semaphore is not
given behind a holder's back was the host told that the firmware is ready, or the pointer set to
`mng_host_req_rtd3_notified`, while somebody had access. -/
theorem rtd3Safe_of_disciplined {overshift : BitVec 32} {x : MngDev}
    (h : Lts.Reach MngDev.Initial (mngStep overshift) Rtd3Discipline x) : Rtd3Safe x := by
  have hinv : Rtd3Inv x := by
    refine h.invariant (fun x hx => ?_) fun x l x' hx hd hst => ?_
    · rw [hx]
      exact rtd3Inv_start
    · exact ⟨accessInv_step hx.access hd.1 hst, tokenInv_step hx.access hx.token hd hst,
        rtd3Safe_step hx.token hx.safe hst⟩
  exact hinv.safe

/-- A message of the host that the task handles at once. -/
def message (cmd : MngCmd) : List MngLabel := [.rxInterrupt cmd, .rxTask]

/-- The host goes to sleep after the last holder has left, wakes up when a thread asks for access,
and is told to wait when it wants to sleep again. -/
theorem rtd3Safe_sleep_and_wake :
    ∃ x, Rtd3Safe x ∧ x.log = [.granted 0 0 [], .rtd3NotifyAck false [0], .released 0 0 [],
      .notified [], .rtd3NotifyAck true [], .triggerPme, .d0NotifyAck, .granted 1 0 [],
      .rtd3NotifyAck false [0]] := by
  obtain ⟨x, hreach, hlog⟩ := exists_mngDisciplined Rtd3Discipline
    (firstReq 0 ++ message .rtd3Notify ++ ([.answerStep, .dereq 0 0] : List MngLabel) ++
      message .rtd3Notify ++ ([.answerStep, .answerStep, .rtd3Entry, .d3Step, .lock 1, .reqStep,
        .reqStep, .reqStep] : List MngLabel) ++
      message .d0Notify ++ [MngLabel.reqStep] ++ message .rtd3Notify ++ [MngLabel.answerStep])
    (fun x => x.log = [.granted 0 0 [], .rtd3NotifyAck false [0], .released 0 0 [],
      .notified [], .rtd3NotifyAck true [], .triggerPme, .d0NotifyAck, .granted 1 0 [],
      .rtd3NotifyAck false [0]]) (by decide +kernel)
  exact ⟨x, rtd3Safe_of_disciplined hreach, hlog⟩

/-- `MNG_D0_NOTIFY` comes while a thread has access, and the host is told that it may sleep. -/
theorem not_rtd3Safe_d0Notify :
    ∃ x, Lts.Reach MngDev.Initial (mngStep 0) Lts.Free x ∧
      x.log = [.granted 0 0 [], .d0NotifyAck, .notified [0], .rtd3NotifyAck true [0]] ∧
      ¬ Rtd3Safe x := by
  obtain ⟨x, hreach, hlog⟩ := exists_mngDisciplined Lts.Free
    (firstReq 0 ++ message .d0Notify ++ message .rtd3Notify ++
      ([.answerStep, .answerStep] : List MngLabel))
    (fun x => x.log = [.granted 0 0 [], .d0NotifyAck, .notified [0], .rtd3NotifyAck true [0]])
    (by decide +kernel)
  refine ⟨x, hreach, hlog, fun hsafe => ?_⟩
  have hack := hsafe (.rtd3NotifyAck true [0]) (by rw [hlog]; simp)
  cases hack

end PseFw.Mng
