/-
**The gate control lists.**

`tsn_config_init` goes through the ports of the TSN region and asks the network stack to set up
their features, one request after the other.  All requests are made with one structure of
parameters, a union in which the parameters of the features and of the kinds of requests overlap,
and which is never cleared.  A request that fails is reported and mostly left at that.

The gate control list of a port is programmed row by row, and then its length.  A row that fails is
skipped, but counted: the length is the loop counter, so the hardware runs rows that were never
written.

Main definitions:

* `ParamField`, `TsnPlatform` — the parameters, and what the network stack is relied on for;
* `tsnPort`, `tsnConfigInit` — the requests made for a port, and for all ports;
* `gclEvents` — what they program of the gate control list;
* `GclExact` — what is wanted.

Main results:

* `events_tsnPort` — the gate control list of a port, whatever the parameters held before;
* `gclExact_iff` — **for which regions and failures the list of a port is exact**;
* `not_gclExact_failedRow` — a list of two rows, the first of which fails.
-/

import PseFw.Lib.Overlay

set_option relaxedAutoImplicit false
set_option autoImplicit false

namespace PseFw.Tsn

/-! ### The TSN region -/

/-- `struct tsn_cbs`. -/
structure TsnCbs where
  valid : UInt32
  numQueues : UInt32
  queue : ℕ → UInt32

/-- `struct tsn_est_gc`. -/
structure TsnEstGc where
  gateControl : UInt32
  timeIntervalNsec : UInt32
  operationMode : UInt32

/-- `struct tsn_est`. -/
structure TsnEst where
  valid : UInt32
  baseTimeNsec : UInt32
  baseTimeSec : UInt32
  cycleTimeNsec : UInt32
  cycleTimeSec : UInt32
  timeExtensionNsec : UInt32
  numGcLists : UInt32
  gcList : ℕ → TsnEstGc

/-- `struct tsn_fpe`. -/
structure TsnFpe where
  valid : UInt32
  holdAdvanceNsec : UInt32
  releaseAdvanceNsec : UInt32
  additionalFragment : UInt32
  framePreemptionStatusTable : UInt32

/-- `struct tsn_tbs`. -/
structure TsnTbs where
  valid : UInt32
  tbsQueues : UInt32

/-- `struct pse_tsn_mac_config`. -/
structure PseTsnMacConfig where
  valid : UInt32
  cbs : TsnCbs
  est : TsnEst
  fpe : TsnFpe
  tbs : TsnTbs

/-- `struct ehl_tsn_vc_tc_config`, the fields that are read. -/
structure EhlTsnVcTcConfig where
  busDevFnc : UInt32
  tsnPort : PseTsnMacConfig

/-- `struct tsn_config_data`, the fields that are read. -/
structure TsnConfigData where
  numPorts : UInt32
  port : ℕ → EhlTsnVcTcConfig

/-- `TSN_EST_GC_LIST_MAX`. -/
abbrev tsnEstGcListMax : ℕ := 20

/-- `PSE_MAX_GBE_PORTS`. -/
abbrev pseMaxGbePorts : ℕ := 2

/-! ### The network stack -/

/-- The fields of `struct ethernet_req_params` that are written. -/
inductive ParamField
  | qavQueueId
  | qavDeltaBandwidth
  | qavType
  | qavEnabled
  | qbuEnabled
  | qbuType
  | qbuHoldAdvance
  | qbuReleaseAdvance
  | qbuAdditionalFragmentSize
  | qbuFramePreemptStatus (k : ℕ)
  | qbvEnabled
  | qbvType
  | qbvRow
  | qbvTimeInterval
  | qbvOperation
  | qbvGateStatus (k : ℕ)
  | qbvGateControlListLen
  | qbvCycleSecond
  | qbvCycleNanosecond
  | qbvExtensionTime
  | qbvBaseSecond
  | qbvBaseFractNsecond
  | txtimeType
  | txtimeQueueId
  | txtimeEnableTxtime
  deriving DecidableEq, Repr

/-- The constants of the network stack that are used. -/
inductive ParamCode
  | qavTypeDeltaBandwidth
  | qavTypeStatus
  | qbuTypeStatus
  | qbuTypeHoldAdvance
  | qbuTypeReleaseAdvance
  | qbrTypeAdditionalFragmentSize
  | qbuTypePreemptionStatusTable
  | qbuStatusPreemptable
  | qbuStatusExpress
  | qbvTypeStatus
  | qbvTypeGateControlList
  | qbvTypeGateControlListLen
  | qbvTypeTime
  | txtimeTypeEnableQueues
  deriving DecidableEq, Repr

/-- A network interface; `ptpTime` is what its clock says, if it has one that can be read. -/
structure NetIf where
  index : ℕ
  isUp : Bool
  ptpTime : Option (ℕ × ℕ)

/-- The fields that say what a row is; there is a gate for each traffic class. -/
def ParamField.IsRow (tcTxCount : ℕ) : ParamField → Prop
  | .qbvRow | .qbvTimeInterval | .qbvOperation => True
  | .qbvGateStatus k => k < tcTxCount
  | _ => False

/-- The fields that are written behind the type of a request. -/
def ParamField.BehindType (tcTxCount : ℕ) : ParamField → Prop
  | .qbvGateControlListLen | .qbvCycleSecond | .qbvCycleNanosecond | .qbvExtensionTime
  | .qbvBaseSecond | .qbvBaseFractNsecond => True
  | f => f.IsRow tcTxCount

/-- **The configuration and the network stack.**  Fields may overlap, but those of a row do not, and
none of them hides the type of the request; there is room for the numbers, and the types of the
requests differ. -/
structure TsnPlatform where
  qav : Bool
  qbu : Bool
  qbv : Bool
  ptpClock : Bool
  tbs : Bool
  txQueues : ℕ
  tcTxCount : ℕ
  /-- The interfaces of the two ports, as far as they are configured and have a device. -/
  gbe0 : Option NetIf
  gbe1 : Option NetIf
  layout : Overlay ParamField
  code : ParamCode → ℕ
  rowApart : ∀ f g : ParamField, f.IsRow tcTxCount → g.IsRow tcTxCount → f ≠ g → layout.Apart f g
  typeApart : ∀ f : ParamField, f.BehindType tcTxCount → layout.Apart f .qbvType
  roomType : ∀ c : ParamCode, code c < 256 ^ layout.size .qbvType
  roomRow : 20 < 256 ^ layout.size .qbvRow
  roomLen : 20 < 256 ^ layout.size .qbvGateControlListLen
  roomGate : ∀ k, 1 < 256 ^ layout.size (.qbvGateStatus k)
  roomInterval : 2 ^ 32 ≤ 256 ^ layout.size .qbvTimeInterval
  roomOperation : 2 ^ 32 ≤ 256 ^ layout.size .qbvOperation
  statusNeList : code .qbvTypeStatus ≠ code .qbvTypeGateControlList
  statusNeLen : code .qbvTypeStatus ≠ code .qbvTypeGateControlListLen
  listNeLen : code .qbvTypeGateControlList ≠ code .qbvTypeGateControlListLen
  timeNeList : code .qbvTypeTime ≠ code .qbvTypeGateControlList
  timeNeLen : code .qbvTypeTime ≠ code .qbvTypeGateControlListLen

/-- The requests that are made. -/
inductive NetRequest
  | setQavParam
  | setQbuParam
  | setQbvParam
  | setTxtimeParam
  deriving DecidableEq, Repr

/-- The calls of the network stack for a port that may fail, each of which is made once. -/
inductive TsnCall
  | qavBandwidth (j : ℕ)
  | qavStatus (j : ℕ)
  | qbuStatus
  | qbuHoldAdvance
  | qbuReleaseAdvance
  | qbuAdditionalFragment
  | qbuPreemptionTable
  | qbvStatus
  | qbvRow (j : ℕ)
  | qbvLen
  | qbvTime
  | txtimeQueue (j : ℕ)
  | ifDown
  deriving DecidableEq, Repr

/-- A request, with the parameters it was made with. -/
structure Sent where
  request : NetRequest
  iface : ℕ
  params : ℕ → UInt8
  failed : Bool

/-- The parameters, and the requests made for a port. -/
structure PortRun where
  params : ℕ → UInt8
  sent : List Sent

variable (P : TsnPlatform)

/-- A field of the parameters is set. -/
def PortRun.set (f : ParamField) (v : ℕ) (x : PortRun) : PortRun :=
  { x with params := P.layout.set f v x.params }

/-- `net_mgmt`. -/
def PortRun.netMgmt (request : NetRequest) (iface : NetIf) (failed : Bool) (x : PortRun) :
    PortRun :=
  { x with sent := x.sent ++ [⟨request, iface.index, x.params, failed⟩] }

/-- `pciport_2_iface`; the mask is `PCI_ECAM_MASK`. -/
def pciport2Iface (busDevFnc : UInt32) : Option NetIf :=
  if busDevFnc &&& 0x001FF000 = 0x000E9000 then P.gbe0
  else if busDevFnc &&& 0x001FF000 = 0x000EA000 then P.gbe1
  else none

/-! ### The requests for a port -/

variable (i : NetIf) (fails : TsnCall → Bool)

/-- The body of the loop over the queues of Qav. -/
def qavQueue (cbs : TsnCbs) (x : PortRun) (j : ℕ) : PortRun :=
  if cbs.queue j = 100 then x
  else
    let x := ((x.set P .qavQueueId j).set P .qavDeltaBandwidth (cbs.queue j).toNat).set P .qavType
      (P.code .qavTypeDeltaBandwidth)
    let x := x.netMgmt .setQavParam i (fails (.qavBandwidth j))
    if fails (.qavBandwidth j) then x
    else
      let x := (x.set P .qavEnabled 1).set P .qavType (P.code .qavTypeStatus)
      x.netMgmt .setQavParam i (fails (.qavStatus j))

/-- Qav. -/
def configQav (cbs : TsnCbs) (x : PortRun) : PortRun :=
  if P.qav ∧ cbs.valid ≠ 0 then
    (List.range (min cbs.numQueues.toNat P.txQueues)).foldl (qavQueue P i fails cbs) x
  else x

/-- A request of Qbu with one number. -/
def qbuRequest (type : ParamCode) (f : ParamField) (v : ℕ) (c : TsnCall) (x : PortRun) : PortRun :=
  ((x.set P .qbuType (P.code type)).set P f v).netMgmt .setQbuParam i (fails c)

/-- The body of the loop over the traffic classes of Qbu. -/
def qbuPreempt (fpe : TsnFpe) (x : PortRun) (j : ℕ) : PortRun :=
  x.set P (.qbuFramePreemptStatus j)
    (P.code (if fpe.framePreemptionStatusTable.toNat.testBit j then .qbuStatusPreemptable
      else .qbuStatusExpress))

/-- Qbu, and whether the port is gone on with. -/
def configQbu (fpe : TsnFpe) (x : PortRun) : PortRun × Bool :=
  if P.qbu ∧ fpe.valid ≠ 0 then
    let x := (x.set P .qbuEnabled 1).set P .qbuType (P.code .qbuTypeStatus)
    let x := x.netMgmt .setQbuParam i (fails .qbuStatus)
    if fails .qbuStatus then (x, false)
    else
      let x := qbuRequest P i fails .qbuTypeHoldAdvance .qbuHoldAdvance fpe.holdAdvanceNsec.toNat
        .qbuHoldAdvance x
      let x := qbuRequest P i fails .qbuTypeReleaseAdvance .qbuReleaseAdvance
        fpe.releaseAdvanceNsec.toNat .qbuReleaseAdvance x
      let x := qbuRequest P i fails .qbrTypeAdditionalFragmentSize .qbuAdditionalFragmentSize
        fpe.additionalFragment.toNat .qbuAdditionalFragment x
      let x := x.set P .qbuType (P.code .qbuTypePreemptionStatusTable)
      let x := (List.range P.tcTxCount).foldl (qbuPreempt P fpe) x
      (x.netMgmt .setQbuParam i (fails .qbuPreemptionTable), true)
  else (x, true)

/-- A gate of a row. -/
def gateStatus (gc : TsnEstGc) (k : ℕ) : ℕ := if gc.gateControl.toNat.testBit k then 1 else 0

/-- The body of the loop over the rows of the gate control list.  When the request fails the loop
goes on. -/
def gateControlRow (est : TsnEst) (x : PortRun) (j : ℕ) : PortRun :=
  let x := x.set P .qbvType (P.code .qbvTypeGateControlList)
  let x := x.set P .qbvRow j
  let x := x.set P .qbvTimeInterval (est.gcList j).timeIntervalNsec.toNat
  let x := x.set P .qbvOperation (est.gcList j).operationMode.toNat
  let x := (List.range P.tcTxCount).foldl
    (fun x k => x.set P (.qbvGateStatus k) (gateStatus (est.gcList j) k)) x
  x.netMgmt .setQbvParam i (fails (.qbvRow j))

/-- The loop counter behind the loop over the rows. -/
def gclCounter (est : TsnEst) : ℕ := min est.numGcLists.toNat tsnEstGcListMax

/-- The times of the gate control list; `DEV_ACCESS_DELAY_OFFSET` is 2. -/
def configEstTime (est : TsnEst) (x : PortRun) : PortRun :=
  if P.ptpClock then
    match i.ptpTime with
    | none => x
    | some time =>
        let x := x.set P .qbvType (P.code .qbvTypeTime)
        let x := x.set P .qbvCycleSecond est.cycleTimeSec.toNat
        let x := x.set P .qbvCycleNanosecond est.cycleTimeNsec.toNat
        let x := x.set P .qbvExtensionTime est.timeExtensionNsec.toNat
        let x := x.set P .qbvBaseSecond (time.1 + 2 + est.baseTimeSec.toNat)
        let x := x.set P .qbvBaseFractNsecond est.baseTimeNsec.toNat
        x.netMgmt .setQbvParam i (fails .qbvTime)
  else x

/-- Qbv, and whether the port is gone on with. -/
def configQbv (est : TsnEst) (x : PortRun) : PortRun × Bool :=
  if P.qbv ∧ est.valid ≠ 0 then
    let x := (x.set P .qbvEnabled 1).set P .qbvType (P.code .qbvTypeStatus)
    let x := x.netMgmt .setQbvParam i (fails .qbvStatus)
    if fails .qbvStatus then (x, false)
    else
      let x := (List.range (gclCounter est)).foldl (gateControlRow P i fails est) x
      let x := x.set P .qbvType (P.code .qbvTypeGateControlListLen)
      let x := x.set P .qbvGateControlListLen (gclCounter est)
      let x := x.netMgmt .setQbvParam i (fails .qbvLen)
      (configEstTime P i fails est x, true)
  else (x, true)

/-- The body of the loop over the queues of TBS. -/
def tbsQueue (tbs : TsnTbs) (x : PortRun) (j : ℕ) : PortRun :=
  let x := x.set P .txtimeQueueId j
  let x := x.set P .txtimeEnableTxtime (if tbs.tbsQueues.toNat.testBit j then 1 else 0)
  x.netMgmt .setTxtimeParam i (fails (.txtimeQueue j))

/-- TBS, for which the link is taken down. -/
def configTbs (tbs : TsnTbs) (x : PortRun) : PortRun :=
  if P.tbs ∧ tbs.valid ≠ 0 then
    if i.isUp ∧ fails .ifDown then x
    else
      let x := x.set P .txtimeType (P.code .txtimeTypeEnableQueues)
      (List.range P.txQueues).foldl (tbsQueue P i fails tbs) x
  else x

/-- The body of the loop over the ports in `tsn_config_init`; `goto` leads to the next feature,
`continue` to the next port. -/
def tsnPort (conf : EhlTsnVcTcConfig) (params : ℕ → UInt8) : PortRun :=
  let x : PortRun := ⟨params, []⟩
  if conf.tsnPort.valid = 0 then x
  else
    match pciport2Iface P conf.busDevFnc with
    | none => x
    | some i =>
        let x := configQav P i fails conf.tsnPort.cbs x
        let r := configQbu P i fails conf.tsnPort.fpe x
        if r.2 = false then r.1
        else
          let r := configQbv P i fails conf.tsnPort.est r.1
          if r.2 = false then r.1 else configTbs P i fails conf.tsnPort.tbs r.1

/-- The loop over the ports: the requests for each of the `n` ports from port `i` on. -/
def tsnPorts (conf : TsnConfigData) (fails : ℕ → TsnCall → Bool) :
    ℕ → ℕ → (ℕ → UInt8) → List (List Sent)
  | 0, _, _ => []
  | n + 1, i, params =>
      let x := tsnPort P (fails i) (conf.port i) params
      x.sent :: tsnPorts conf fails n (i + 1) x.params

/-- `tsn_config_init`: the requests for each port. -/
def tsnConfigInit (conf : TsnConfigData) (fails : ℕ → TsnCall → Bool) : List (List Sent) :=
  if conf.numPorts = 0 ∨ pseMaxGbePorts < conf.numPorts.toNat then []
  else tsnPorts P conf fails conf.numPorts.toNat 0 fun _ => 0

/-! ### What is programmed -/

/-- A row of the gate control list: its number, the gates, the interval and the operation. -/
structure GclRow where
  row : ℕ
  gates : List ℕ
  timeInterval : ℕ
  operation : ℕ
  deriving DecidableEq, Repr

/-- What a request programs of the gate control list. -/
inductive GclEvent
  | row (r : GclRow)
  | length (n : ℕ)
  deriving DecidableEq, Repr

/-- The row in the parameters. -/
def rowIn (params : ℕ → UInt8) : GclRow where
  row := P.layout.get params .qbvRow
  gates := (List.range P.tcTxCount).map fun k => P.layout.get params (.qbvGateStatus k)
  timeInterval := P.layout.get params .qbvTimeInterval
  operation := P.layout.get params .qbvOperation

/-- **What a request programs**, if it succeeds: what is in its parameters. -/
def Sent.event (s : Sent) : Option GclEvent :=
  if s.request = .setQbvParam ∧ s.failed = false then
    if P.layout.get s.params .qbvType = P.code .qbvTypeGateControlList then
      some (.row (rowIn P s.params))
    else if P.layout.get s.params .qbvType = P.code .qbvTypeGateControlListLen then
      some (.length (P.layout.get s.params .qbvGateControlListLen))
    else none
  else none

/-- What the requests for a port program, in their order. -/
def gclEvents (sent : List Sent) : List GclEvent := sent.filterMap (Sent.event P)

/-- The rows that are programmed. -/
def rowsOf (events : List GclEvent) : List GclRow :=
  events.filterMap fun e =>
    match e with
    | .row r => some r
    | .length _ => none

/-- The row a region has at place `j`. -/
def regionRow (est : TsnEst) (j : ℕ) : GclRow where
  row := j
  gates := (List.range P.tcTxCount).map (gateStatus (est.gcList j))
  timeInterval := (est.gcList j).timeIntervalNsec.toNat
  operation := (est.gcList j).operationMode.toNat

/-- **The gate control list of a port is exact**: a length that is programmed is the number of rows
that are programmed, and each row below it is programmed as the region has it; and nothing about it
depends on the other ports. -/
structure GclExact (conf : TsnConfigData) (fails : ℕ → TsnCall → Bool) (i : ℕ) : Prop where
  count : ∀ sent, (tsnConfigInit P conf fails)[i]? = some sent →
    ∀ n, .length n ∈ gclEvents P sent → (rowsOf (gclEvents P sent)).length = n
  written : ∀ sent, (tsnConfigInit P conf fails)[i]? = some sent →
    ∀ n, .length n ∈ gclEvents P sent → ∀ j < n,
      regionRow P (conf.port i).tsnPort.est j ∈ rowsOf (gclEvents P sent) ∧
        ∀ r ∈ rowsOf (gclEvents P sent), r.row = j → r = regionRow P (conf.port i).tsnPort.est j
  independent : ∀ conf' fails' sent sent', conf'.port i = conf.port i → fails' i = fails i →
    (tsnConfigInit P conf fails)[i]? = some sent →
      (tsnConfigInit P conf' fails')[i]? = some sent' → gclEvents P sent' = gclEvents P sent

/-! ### The requests of the other features -/

variable {P} {i : NetIf} {fails : TsnCall → Bool}

@[simp] theorem sent_set (f : ParamField) (v : ℕ) (x : PortRun) : (x.set P f v).sent = x.sent := rfl

theorem events_netMgmt (request : NetRequest) (failed : Bool) (x : PortRun) :
    gclEvents P (x.netMgmt request i failed).sent =
      gclEvents P x.sent ++ (Sent.event P ⟨request, i.index, x.params, failed⟩).toList := by
  unfold PortRun.netMgmt gclEvents
  rw [List.filterMap_append]
  cases h : Sent.event P ⟨request, i.index, x.params, failed⟩ with
  | none => rw [List.filterMap_cons_none h]; rfl
  | some e => rw [List.filterMap_cons_some h]; rfl

/-- The requests of the other features program nothing of the gate control list. -/
theorem events_netMgmt_other {request : NetRequest} (h : request ≠ .setQbvParam) (failed : Bool)
    (x : PortRun) : gclEvents P (x.netMgmt request i failed).sent = gclEvents P x.sent := by
  have hnone : Sent.event P ⟨request, i.index, x.params, failed⟩ = none := if_neg fun hc => h hc.1
  rw [events_netMgmt, hnone]
  exact List.append_nil _

theorem events_foldl {f : PortRun → ℕ → PortRun}
    (h : ∀ x j, gclEvents P (f x j).sent = gclEvents P x.sent) (l : List ℕ) (x : PortRun) :
    gclEvents P (l.foldl f x).sent = gclEvents P x.sent := by
  induction l generalizing x with
  | nil => rfl
  | cons j l ih => rw [List.foldl_cons, ih, h]

theorem events_configQav (cbs : TsnCbs) (x : PortRun) :
    gclEvents P (configQav P i fails cbs x).sent = gclEvents P x.sent := by
  unfold configQav
  split
  · refine events_foldl (fun x j => ?_) _ x
    unfold qavQueue
    split
    · rfl
    · dsimp only
      split
      · rw [events_netMgmt_other (by decide)]
        rfl
      · rw [events_netMgmt_other (by decide)]
        exact events_netMgmt_other (by decide) _ _
  · rfl

theorem events_qbuRequest (type : ParamCode) (f : ParamField) (v : ℕ) (c : TsnCall) (x : PortRun) :
    gclEvents P (qbuRequest P i fails type f v c x).sent = gclEvents P x.sent := by
  unfold qbuRequest
  rw [events_netMgmt_other (by decide)]
  rfl

theorem events_configQbu (fpe : TsnFpe) (x : PortRun) :
    gclEvents P (configQbu P i fails fpe x).1.sent = gclEvents P x.sent := by
  unfold configQbu
  split
  · dsimp only
    split
    · rw [events_netMgmt_other (by decide)]
      rfl
    · have hpreempt : ∀ x j, gclEvents P (qbuPreempt P fpe x j).sent = gclEvents P x.sent :=
        fun _ _ => rfl
      rw [events_netMgmt_other (by decide), events_foldl hpreempt, sent_set, events_qbuRequest,
        events_qbuRequest, events_qbuRequest, events_netMgmt_other (by decide)]
      rfl
  · rfl

/-- Qbu ends the port only when it cannot be turned on. -/
theorem snd_configQbu (fpe : TsnFpe) (x : PortRun) :
    (configQbu P i fails fpe x).2 = false ↔
      (P.qbu = true ∧ fpe.valid ≠ 0) ∧ fails .qbuStatus = true := by
  unfold configQbu
  by_cases hqbu : P.qbu = true ∧ fpe.valid ≠ 0
  · rw [if_pos hqbu]
    dsimp only
    by_cases hfails : fails .qbuStatus = true
    · rw [if_pos hfails]
      exact ⟨fun _ => ⟨hqbu, hfails⟩, fun _ => rfl⟩
    · rw [if_neg hfails]
      exact ⟨fun h => Bool.noConfusion h, fun h => absurd h.2 hfails⟩
  · rw [if_neg hqbu]
    exact ⟨fun h => Bool.noConfusion h, fun h => absurd h.1 hqbu⟩

theorem events_configTbs (tbs : TsnTbs) (x : PortRun) :
    gclEvents P (configTbs P i fails tbs x).sent = gclEvents P x.sent := by
  unfold configTbs
  split
  · split
    · rfl
    · dsimp only
      rw [events_foldl]
      · rfl
      · intro x j
        unfold tbsQueue
        dsimp only
        rw [events_netMgmt_other (by decide)]
        rfl
  · rfl

/-! ### The requests of the gate control list -/

/-- The type of a request is still there behind what is written after it. -/
theorem type_set {f : ParamField} (h : f.BehindType P.tcTxCount) (v : ℕ) (x : PortRun) :
    P.layout.get (x.set P f v).params .qbvType = P.layout.get x.params .qbvType :=
  Overlay.get_set_apart (P.typeApart f h) x.params

theorem type_set_self (c : ParamCode) (x : PortRun) :
    P.layout.get (x.set P .qbvType (P.code c)).params .qbvType = P.code c :=
  Overlay.get_set_self (P.roomType c) x.params

/-- What a part of a row is does not change when another part is written. -/
theorem part_set {f g : ParamField} (hf : f.IsRow P.tcTxCount) (hg : g.IsRow P.tcTxCount)
    (hne : f ≠ g) (v : ℕ) (x : PortRun) :
    P.layout.get (x.set P f v).params g = P.layout.get x.params g :=
  Overlay.get_set_apart (P.rowApart f g hf hg hne) x.params

/-- **The loop over the gates**: it writes them, and neither the rest of the row nor the type. -/
theorem gates_spec (gc : TsnEstGc) (x : PortRun) {n : ℕ} (hn : n ≤ P.tcTxCount) :
    let y := (List.range n).foldl (fun x k => x.set P (.qbvGateStatus k) (gateStatus gc k)) x
    y.sent = x.sent ∧ P.layout.get y.params .qbvType = P.layout.get x.params .qbvType ∧
      (∀ f : ParamField, f.IsRow P.tcTxCount → (∀ k, f ≠ .qbvGateStatus k) →
        P.layout.get y.params f = P.layout.get x.params f) ∧
      ∀ k < n, P.layout.get y.params (.qbvGateStatus k) = gateStatus gc k := by
  induction n with
  | zero => exact ⟨rfl, rfl, fun _ _ _ => rfl, fun k hk => by omega⟩
  | succ n ih =>
      obtain ⟨hsent, htype, hother, hgates⟩ := ih (by omega)
      rw [List.range_succ, List.foldl_append, List.foldl_cons, List.foldl_nil]
      have hgate : (ParamField.qbvGateStatus n).IsRow P.tcTxCount := Nat.lt_of_succ_le hn
      refine ⟨hsent, ?_, fun f hf hne => ?_, fun k hk => ?_⟩
      · rw [type_set (f := .qbvGateStatus n) hgate, htype]
      · rw [part_set hgate hf (hne n).symm, hother f hf hne]
      · by_cases hkn : k = n
        · rw [hkn]
          refine Overlay.get_set_self ?_ _
          have hroom := P.roomGate n
          unfold gateStatus
          split <;> omega
        · have hgatek : (ParamField.qbvGateStatus k).IsRow P.tcTxCount :=
            Nat.lt_of_lt_of_le hk hn
          have hne : ParamField.qbvGateStatus n ≠ .qbvGateStatus k := fun h => by
            cases h
            exact hkn rfl
          rw [part_set hgate hgatek hne, hgates k (by omega)]

/-- The interval or the operation of a row is written. -/
theorem word_set {f : ParamField} (hroom : 2 ^ 32 ≤ 256 ^ P.layout.size f) (v : UInt32)
    (x : PortRun) : P.layout.get (x.set P f v.toNat).params f = v.toNat :=
  Overlay.get_set_self (v.toNat_lt.trans_le hroom) x.params

/-- **What a row programs**: if it does not fail, the row of the region. -/
theorem events_gateControlRow (est : TsnEst) (x : PortRun) {j : ℕ} (hj : j ≤ 20) :
    gclEvents P (gateControlRow P i fails est x j).sent =
      gclEvents P x.sent ++ if fails (.qbvRow j) then [] else [.row (regionRow P est j)] := by
  unfold gateControlRow
  dsimp only
  rw [events_netMgmt]
  have hop : ParamField.qbvOperation.IsRow P.tcTxCount := trivial
  have hint : ParamField.qbvTimeInterval.IsRow P.tcTxCount := trivial
  have hrow : ParamField.qbvRow.IsRow P.tcTxCount := trivial
  obtain ⟨hsent, htype, hother, hgates⟩ := gates_spec (est.gcList j)
    ((((x.set P .qbvType (P.code .qbvTypeGateControlList)).set P .qbvRow j).set P .qbvTimeInterval
      (est.gcList j).timeIntervalNsec.toNat).set P .qbvOperation
        (est.gcList j).operationMode.toNat) (le_refl P.tcTxCount)
  rw [hsent]
  refine congrArg₂ _ rfl ?_
  unfold Sent.event
  by_cases hfails : fails (.qbvRow j) = true
  · rw [if_pos hfails, if_neg fun h => by rw [hfails] at h; exact Bool.noConfusion h.2]
    rfl
  · rw [if_neg hfails, if_pos ⟨rfl, Bool.eq_false_iff.2 hfails⟩, if_pos]
    · refine congrArg (fun r => [GclEvent.row r]) ?_
      unfold rowIn regionRow
      congr 1
      · rw [hother _ hrow (fun k h => by cases h), part_set hop hrow (by decide),
          part_set hint hrow (by decide)]
        exact Overlay.get_set_self (Nat.lt_of_le_of_lt hj P.roomRow) _
      · exact List.map_congr_left fun k hk => hgates k (List.mem_range.1 hk)
      · rw [hother _ hint (fun k h => by cases h), part_set hop hint (by decide)]
        exact word_set P.roomInterval _ _
      · rw [hother _ hop (fun k h => by cases h)]
        exact word_set P.roomOperation _ _
    · rw [htype, type_set (f := .qbvOperation) hop, type_set (f := .qbvTimeInterval) hint,
        type_set (f := .qbvRow) hrow, type_set_self]

/-- The rows of a region that do not fail. -/
def doneRows (fails : TsnCall → Bool) (n : ℕ) : List ℕ :=
  (List.range n).filter fun j => ! fails (.qbvRow j)

/-- **What the loop over the rows programs.** -/
theorem events_rows (est : TsnEst) (x : PortRun) {n : ℕ} (hn : n ≤ 20) :
    gclEvents P ((List.range n).foldl (gateControlRow P i fails est) x).sent =
      gclEvents P x.sent ++ (doneRows fails n).map fun j => .row (regionRow P est j) := by
  induction n with
  | zero => exact (List.append_nil _).symm
  | succ n ih =>
      rw [List.range_succ, List.foldl_append, List.foldl_cons, List.foldl_nil,
        events_gateControlRow est _ (by omega), ih (by omega), List.append_assoc]
      refine congrArg _ ?_
      unfold doneRows
      rw [List.range_succ, List.filter_append, List.map_append]
      cases hfails : fails (.qbvRow n) with
      | true => simp [hfails]
      | false => simp [hfails]

/-- What is programmed of a gate control list, as far as the requests do not fail. -/
def estEvents (est : TsnEst) (fails : TsnCall → Bool) : List GclEvent :=
  if P.qbv ∧ est.valid ≠ 0 then
    if fails .qbvStatus then []
    else ((doneRows fails (gclCounter est)).map fun j => .row (regionRow P est j)) ++
      if fails .qbvLen then [] else [.length (gclCounter est)]
  else []

theorem event_status (fails : Bool) (x : PortRun) :
    Sent.event P ⟨.setQbvParam, i.index,
      (x.set P .qbvType (P.code .qbvTypeStatus)).params, fails⟩ = none := by
  unfold Sent.event
  dsimp only
  rw [type_set_self, if_neg P.statusNeList, if_neg P.statusNeLen, ite_self]

theorem event_time (fails : Bool) {x : PortRun}
    (h : P.layout.get x.params .qbvType = P.code .qbvTypeTime) :
    Sent.event P ⟨.setQbvParam, i.index, x.params, fails⟩ = none := by
  unfold Sent.event
  dsimp only
  rw [h, if_neg P.timeNeList, if_neg P.timeNeLen, ite_self]

/-- The times are no part of the list. -/
theorem events_configEstTime (est : TsnEst) (x : PortRun) :
    gclEvents P (configEstTime P i fails est x).sent = gclEvents P x.sent := by
  unfold configEstTime
  split
  · cases i.ptpTime with
    | none => rfl
    | some time =>
        dsimp only
        rw [events_netMgmt, event_time]
        · exact List.append_nil _
        · rw [type_set (f := .qbvBaseFractNsecond) trivial, type_set (f := .qbvBaseSecond) trivial,
            type_set (f := .qbvExtensionTime) trivial,
            type_set (f := .qbvCycleNanosecond) trivial, type_set (f := .qbvCycleSecond) trivial,
            type_set_self]
  · rfl

/-- **What Qbv programs of the list.** -/
theorem events_configQbv (est : TsnEst) (x : PortRun) :
    gclEvents P (configQbv P i fails est x).1.sent =
      gclEvents P x.sent ++ estEvents (P := P) est fails := by
  have hcounter : gclCounter est ≤ 20 := Nat.min_le_right _ _
  unfold configQbv estEvents
  by_cases hqbv : P.qbv = true ∧ est.valid ≠ 0
  · rw [if_pos hqbv, if_pos hqbv]
    dsimp only
    have hstatus : gclEvents P ((((x.set P .qbvEnabled 1).set P .qbvType
        (P.code .qbvTypeStatus)).netMgmt .setQbvParam i (fails .qbvStatus)).sent) =
        gclEvents P x.sent := by
      rw [events_netMgmt, event_status]
      exact List.append_nil _
    by_cases hfails : fails .qbvStatus = true
    · rw [if_pos hfails, if_pos hfails, hstatus, List.append_nil]
    · rw [if_neg hfails, if_neg hfails]
      dsimp only
      rw [events_configEstTime, events_netMgmt, sent_set, sent_set, events_rows est _ hcounter,
        hstatus, List.append_assoc]
      refine congrArg _ (congrArg _ ?_)
      unfold Sent.event
      dsimp only
      rw [type_set (f := .qbvGateControlListLen) trivial, type_set_self, if_neg P.listNeLen.symm]
      cases hlen : fails .qbvLen with
      | true => simp
      | false =>
          simp only [Bool.false_eq_true, ↓reduceIte, and_self, Option.toList_some]
          refine congrArg (fun n => [GclEvent.length n]) ?_
          exact Overlay.get_set_self (Nat.lt_of_le_of_lt hcounter P.roomLen) _
  · rw [if_neg hqbv, if_neg hqbv, List.append_nil]

/-! ### The gate control list of a port -/

/-- **What is programmed for a port**, in terms of its configuration and failures. -/
def portEvents (conf : EhlTsnVcTcConfig) (fails : TsnCall → Bool) : List GclEvent :=
  if conf.tsnPort.valid = 0 ∨ pciport2Iface P conf.busDevFnc = none ∨
      ((P.qbu = true ∧ conf.tsnPort.fpe.valid ≠ 0) ∧ fails .qbuStatus = true) then []
  else estEvents (P := P) conf.tsnPort.est fails

/-- **The gate control list of a port** does not depend on what the parameters held before. -/
theorem events_tsnPort (conf : EhlTsnVcTcConfig) (params : ℕ → UInt8) :
    gclEvents P (tsnPort P fails conf params).sent = portEvents (P := P) conf fails := by
  unfold tsnPort portEvents
  dsimp only
  by_cases hvalid : conf.tsnPort.valid = 0
  · rw [if_pos hvalid, if_pos (.inl hvalid)]
    rfl
  · rw [if_neg hvalid]
    cases hiface : pciport2Iface P conf.busDevFnc with
    | none =>
        rw [if_pos (.inr (.inl rfl))]
        rfl
    | some i =>
        dsimp only
        have hqbu := @snd_configQbu P i fails conf.tsnPort.fpe
          (configQav P i fails conf.tsnPort.cbs ⟨params, []⟩)
        have hbefore : gclEvents P (configQbu P i fails conf.tsnPort.fpe
            (configQav P i fails conf.tsnPort.cbs ⟨params, []⟩)).1.sent = [] := by
          rw [events_configQbu, events_configQav]
          rfl
        by_cases hend : (configQbu P i fails conf.tsnPort.fpe
            (configQav P i fails conf.tsnPort.cbs ⟨params, []⟩)).2 = false
        · rw [if_pos hend, if_pos (.inr (.inr (hqbu.1 hend))), hbefore]
        · have hgo : ¬ (conf.tsnPort.valid = 0 ∨ some i = none ∨
              ((P.qbu = true ∧ conf.tsnPort.fpe.valid ≠ 0) ∧ fails .qbuStatus = true)) := by
            rintro (h | h | h)
            · exact hvalid h
            · cases h
            · exact hend (hqbu.2 h)
          rw [if_neg hend, if_neg hgo]
          split
          · rw [events_configQbv, hbefore, List.nil_append]
          · rw [events_configTbs, events_configQbv, hbefore, List.nil_append]

/-! ### All ports -/

variable {conf : TsnConfigData} {failures : ℕ → TsnCall → Bool}

theorem getElem?_tsnPorts (n a k : ℕ) (params : ℕ → UInt8) {sent : List Sent}
    (h : (tsnPorts P conf failures n a params)[k]? = some sent) :
    ∃ params', sent = (tsnPort P (failures (a + k)) (conf.port (a + k)) params').sent := by
  induction n generalizing a k params with
  | zero => cases h
  | succ n ih =>
      rw [tsnPorts] at h
      cases k with
      | zero =>
          cases h
          exact ⟨params, rfl⟩
      | succ k =>
          obtain ⟨params', hsent⟩ := ih (a + 1) k _ h
          rw [show a + 1 + k = a + (k + 1) by omega] at hsent
          exact ⟨params', hsent⟩

theorem length_tsnPorts (n a : ℕ) (params : ℕ → UInt8) :
    (tsnPorts P conf failures n a params).length = n := by
  induction n generalizing a params with
  | zero => rfl
  | succ n ih => rw [tsnPorts, List.length_cons, ih]

/-- **The list of a port in a run.** -/
theorem events_of_run {k : ℕ} {sent : List Sent}
    (h : (tsnConfigInit P conf failures)[k]? = some sent) :
    gclEvents P sent = portEvents (P := P) (conf.port k) (failures k) := by
  unfold tsnConfigInit at h
  split at h
  · cases h
  · obtain ⟨params, rfl⟩ := getElem?_tsnPorts _ _ _ _ h
    rw [Nat.zero_add]
    exact events_tsnPort _ params

/-- The port is one of those of the region. -/
def IsPort (conf : TsnConfigData) (k : ℕ) : Prop :=
  conf.numPorts.toNat ≤ pseMaxGbePorts ∧ k < conf.numPorts.toNat

theorem exists_run {k : ℕ} (h : IsPort conf k) :
    ∃ sent, (tsnConfigInit P conf failures)[k]? = some sent := by
  have hne : conf.numPorts ≠ 0 := fun h0 => by
    have hlt := h.2
    rw [h0] at hlt
    exact absurd hlt (Nat.not_lt_zero _)
  unfold tsnConfigInit
  rw [if_neg (not_or.2 ⟨hne, Nat.not_lt.2 h.1⟩)]
  exact ⟨_, List.getElem?_eq_getElem (by rw [length_tsnPorts]; exact h.2)⟩

variable (P) in
/-- **The length of the list of a port is programmed**: the port is configured and has an interface,
it has a valid EST entry, and neither of the requests fails that end the port before it, nor the
request itself. -/
structure LengthProgrammed (conf : TsnConfigData) (failures : ℕ → TsnCall → Bool) (k : ℕ) :
    Prop where
  isPort : IsPort conf k
  valid : (conf.port k).tsnPort.valid ≠ 0
  iface : pciport2Iface P (conf.port k).busDevFnc ≠ none
  qbu : ¬ ((P.qbu = true ∧ (conf.port k).tsnPort.fpe.valid ≠ 0) ∧ failures k .qbuStatus = true)
  qbv : P.qbv = true ∧ (conf.port k).tsnPort.est.valid ≠ 0
  status : failures k .qbvStatus = false
  len : failures k .qbvLen = false

/-- The list of a port whose length is programmed. -/
theorem portEvents_of_programmed {k : ℕ} (h : LengthProgrammed P conf failures k) :
    portEvents (P := P) (conf.port k) (failures k) =
      ((doneRows (failures k) (gclCounter (conf.port k).tsnPort.est)).map fun j =>
        .row (regionRow P (conf.port k).tsnPort.est j)) ++
        [.length (gclCounter (conf.port k).tsnPort.est)] := by
  have hgo : ¬ ((conf.port k).tsnPort.valid = 0 ∨ pciport2Iface P (conf.port k).busDevFnc = none ∨
      ((P.qbu = true ∧ (conf.port k).tsnPort.fpe.valid ≠ 0) ∧ failures k .qbuStatus = true)) := by
    rintro (h' | h' | h')
    · exact h.valid h'
    · exact h.iface h'
    · exact h.qbu h'
  unfold portEvents estEvents
  rw [if_neg hgo, if_pos h.qbv, if_neg (by rw [h.status]; decide), if_neg (by rw [h.len]; decide)]

/-- Only such ports have a length. -/
theorem programmed_of_mem {k n : ℕ} (hk : IsPort conf k)
    (h : GclEvent.length n ∈ portEvents (P := P) (conf.port k) (failures k)) :
    LengthProgrammed P conf failures k ∧ n = gclCounter (conf.port k).tsnPort.est := by
  unfold portEvents estEvents at h
  split at h
  · cases h
  · next hgo =>
      split at h
      · next hqbv =>
          split at h
          · cases h
          · next hstatus =>
              rcases List.mem_append.1 h with h | h
              · obtain ⟨j, -, hj⟩ := List.mem_map.1 h
                cases hj
              · split at h
                · cases h
                · next hlen =>
                    cases List.mem_singleton.1 h
                    exact ⟨⟨hk, fun h' => hgo (.inl h'), fun h' => hgo (.inr (.inl h')),
                      fun h' => hgo (.inr (.inr h')), hqbv, Bool.eq_false_iff.2 hstatus,
                      Bool.eq_false_iff.2 hlen⟩, rfl⟩
      · cases h

theorem rowsOf_append (l l' : List GclEvent) : rowsOf (l ++ l') = rowsOf l ++ rowsOf l' :=
  List.filterMap_append

theorem rowsOf_rows (est : TsnEst) (l : List ℕ) :
    rowsOf (l.map fun j => .row (regionRow P est j)) = l.map (regionRow P est) := by
  unfold rowsOf
  rw [List.filterMap_map]
  show List.filterMap (some ∘ regionRow P est) l = _
  rw [List.filterMap_eq_map]

/-- **For which regions and failures the gate control list of a port is exact**: if its length is
programmed at all, no row fails. -/
theorem gclExact_iff (P : TsnPlatform) (conf : TsnConfigData) (failures : ℕ → TsnCall → Bool)
    (k : ℕ) : GclExact P conf failures k ↔
      (LengthProgrammed P conf failures k →
        ∀ j < gclCounter (conf.port k).tsnPort.est, failures k (.qbvRow j) = false) := by
  constructor
  · rintro ⟨hcount, -, -⟩ hprog j hj
    obtain ⟨sent, hsent⟩ := @exists_run P conf failures k hprog.isPort
    have hevents := (events_of_run hsent).trans (portEvents_of_programmed hprog)
    have hlen := hcount sent hsent (gclCounter (conf.port k).tsnPort.est) (by rw [hevents]; simp)
    rw [hevents, rowsOf_append, rowsOf_rows] at hlen
    have hdone : (doneRows (failures k) (gclCounter (conf.port k).tsnPort.est)).length =
        (List.range (gclCounter (conf.port k).tsnPort.est)).length := by
      rw [List.length_range]
      simpa [rowsOf] using hlen
    have hall := List.length_filter_eq_length_iff.1 hdone j (List.mem_range.2 hj)
    simpa using hall
  · intro h
    have hrows : ∀ sent, (tsnConfigInit P conf failures)[k]? = some sent → ∀ n,
        .length n ∈ gclEvents P sent → n = gclCounter (conf.port k).tsnPort.est ∧
          rowsOf (gclEvents P sent) =
            (List.range n).map (regionRow P (conf.port k).tsnPort.est) := by
      intro sent hsent n hn
      have hk : IsPort conf k := by
        obtain ⟨hlt, -⟩ := List.getElem?_eq_some_iff.1 hsent
        unfold tsnConfigInit at hlt
        split at hlt
        · exact absurd hlt (Nat.not_lt_zero _)
        · next hports =>
            rw [length_tsnPorts] at hlt
            exact ⟨Nat.not_lt.1 (not_or.1 hports).2, hlt⟩
      rw [events_of_run hsent] at hn ⊢
      obtain ⟨hprog, rfl⟩ := programmed_of_mem hk hn
      have hdone : doneRows (failures k) (gclCounter (conf.port k).tsnPort.est) =
          List.range (gclCounter (conf.port k).tsnPort.est) :=
        List.filter_eq_self.2 fun j hj => by rw [h hprog j (List.mem_range.1 hj)]; rfl
      refine ⟨rfl, ?_⟩
      rw [portEvents_of_programmed hprog, rowsOf_append, rowsOf_rows, hdone]
      exact List.append_nil _
    refine ⟨fun sent hsent n hn => ?_, fun sent hsent n hn j hj => ?_, ?_⟩
    · rw [(hrows sent hsent n hn).2, List.length_map, List.length_range]
    · rw [(hrows sent hsent n hn).2]
      refine ⟨List.mem_map_of_mem (List.mem_range.2 hj), fun r hr hrj => ?_⟩
      obtain ⟨j', -, rfl⟩ := List.mem_map.1 hr
      cases (hrj : j' = j)
      rfl
    · intro conf' failures' sent sent' hconf hfail hsent hsent'
      rw [events_of_run hsent, events_of_run hsent', hconf, hfail]

/-! ### A list whose first row fails -/

/-- Where the fields of an `ethernet_req_params` with eight traffic classes are. -/
def paramOffset : ParamField → ℕ
  | .qavQueueId | .txtimeQueueId => 0
  | .qavType | .qbuType | .qbvType | .txtimeType => 4
  | .qavEnabled | .qavDeltaBandwidth | .qbuEnabled | .qbuHoldAdvance | .qbuReleaseAdvance => 8
  | .qbuAdditionalFragmentSize | .txtimeEnableTxtime => 8
  | .qbuFramePreemptStatus k => 8 + 4 * k
  | .qbvEnabled | .qbvGateControlListLen => 12
  | .qbvGateStatus k => 12 + k
  | .qbvOperation => 20
  | .qbvTimeInterval => 24
  | .qbvRow => 28
  | .qbvBaseSecond => 16
  | .qbvBaseFractNsecond => 24
  | .qbvCycleSecond => 32
  | .qbvCycleNanosecond => 40
  | .qbvExtensionTime => 44

/-- How many bytes they have. -/
def paramSize : ParamField → ℕ
  | .qavEnabled | .qbuEnabled | .qbvEnabled | .txtimeEnableTxtime | .qbvGateStatus _ => 1
  | .qbvRow => 2
  | .qbvBaseSecond | .qbvBaseFractNsecond | .qbvCycleSecond => 8
  | _ => 4

/-- Their types. -/
def paramCode : ParamCode → ℕ
  | .qavTypeDeltaBandwidth | .qbuTypeStatus | .qbvTypeStatus | .txtimeTypeEnableQueues => 0
  | .qbuStatusExpress => 0
  | .qbvTypeGateControlList | .qbuTypeReleaseAdvance | .qbuStatusPreemptable => 1
  | .qbvTypeGateControlListLen | .qbuTypeHoldAdvance => 2
  | .qbvTypeTime => 3
  | .qavTypeStatus | .qbrTypeAdditionalFragmentSize => 4
  | .qbuTypePreemptionStatusTable => 5

theorem cases_of_isRow {tc : ℕ} {f : ParamField} (h : f.IsRow tc) :
    f = .qbvRow ∨ f = .qbvTimeInterval ∨ f = .qbvOperation ∨ ∃ k < tc, f = .qbvGateStatus k := by
  cases f with
  | qbvRow => exact .inl rfl
  | qbvTimeInterval => exact .inr (.inl rfl)
  | qbvOperation => exact .inr (.inr (.inl rfl))
  | qbvGateStatus k => exact .inr (.inr (.inr ⟨k, h, rfl⟩))
  | _ => exact h.elim

/-- A network stack with one interface and all features. -/
def gbePlatform : TsnPlatform where
  qav := true
  qbu := true
  qbv := true
  ptpClock := true
  tbs := true
  txQueues := 8
  tcTxCount := 8
  gbe0 := some ⟨1, true, some (0, 0)⟩
  gbe1 := none
  layout := ⟨paramOffset, paramSize⟩
  code := paramCode
  rowApart := by
    intro f g hf hg hne
    show paramOffset f + paramSize f ≤ paramOffset g ∨ paramOffset g + paramSize g ≤ paramOffset f
    rcases cases_of_isRow hf with rfl | rfl | rfl | ⟨k, hk, rfl⟩ <;>
      rcases cases_of_isRow hg with rfl | rfl | rfl | ⟨k', hk', rfl⟩ <;>
        simp [paramOffset, paramSize] at hne ⊢ <;> omega
  typeApart := by
    intro f hf
    show paramOffset f + paramSize f ≤ 4 ∨ 8 ≤ paramOffset f
    cases f <;> simp [ParamField.BehindType, ParamField.IsRow, paramOffset] at hf ⊢
    omega
  roomType := by
    intro c
    cases c <;> decide
  roomRow := by decide
  roomLen := by decide
  roomGate := by
    intro k
    show 1 < 256 ^ 1
    decide
  roomInterval := by decide
  roomOperation := by decide
  statusNeList := by decide
  statusNeLen := by decide
  listNeLen := by decide
  timeNeList := by decide
  timeNeLen := by decide

/-- A port with a list of two rows. -/
def twoRows : TsnConfigData where
  numPorts := 1
  port := fun _ =>
    { busDevFnc := 0x000E9000
      tsnPort :=
        { valid := 1
          cbs := ⟨0, 0, fun _ => 0⟩
          est := ⟨1, 0, 0, 1000, 0, 0, 2, fun _ => ⟨0xFF, 500, 2⟩⟩
          fpe := ⟨0, 0, 0, 0, 0⟩
          tbs := ⟨0, 0⟩ } }

/-- The first row fails. -/
def firstRowFails : ℕ → TsnCall → Bool := fun _ c => c = .qbvRow 0

/-- One row is programmed, and the length 2. -/
theorem not_gclExact_failedRow : ¬ GclExact gbePlatform twoRows firstRowFails 0 := by
  intro h
  have hprog : LengthProgrammed gbePlatform twoRows firstRowFails 0 :=
    ⟨⟨by decide, by decide⟩, by decide, by decide, by decide, by decide, by decide, by decide⟩
  obtain ⟨sent, hsent⟩ := @exists_run gbePlatform twoRows firstRowFails 0 hprog.isPort
  have hevents := (events_of_run hsent).trans (portEvents_of_programmed hprog)
  have hcount := h.count sent hsent 2 (by rw [hevents]; decide)
  rw [hevents, rowsOf_append, rowsOf_rows] at hcount
  exact absurd hcount (by decide)

end PseFw.Tsn
