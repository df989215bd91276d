import Mathlib.Data.Finset.Card
import Ngnet.QmuxHttp3Steps

/-!
# Batched credit reaches the layer below whole

The transport holds back the window extensions that the HTTP/3 layer reports and applies their
sums at the next interaction. What was applied to a window, up to saturation, is what was
reported for it, no report is pending once the connection has ended, and a run of reports over
fewer than 64 streams extends each window once.
-/

namespace Ngnet.QmuxHttp3Credit
open QmuxVarints QmuxCloseCodec QmuxErrors QmuxStreams StatefulPrograms QmuxRecordWriter
open QmuxConnection QmuxConnectionSteps QmuxHttp3Join QmuxHttp3Steps Relation
export QmuxHttp3Join (Inner)

variable {β ν : Type}

/-! ## Sums over a window -/

/-- The largest value of a window, where additions saturate. -/
def saturate (bytes : ℕ) : ℕ := min bytes (2 ^ 64 - 1)

theorem saturate_add {a a' b b' : ℕ} (ha : saturate a = saturate a') (hb : saturate b = saturate b') :
    saturate (a + b) = saturate (a' + b') := by
  unfold saturate at *
  omega

/-- What a list of extensions adds to a window, for those made on a live connection and for the
others apart. -/
def sumFor (window : Window) (live : Bool) (extensions : List Extension) : ℕ :=
  ((extensions.filter fun e => e.window = window && e.live = live).map (·.bytes)).sum

theorem sumFor_append (window : Window) (live : Bool) (a b : List Extension) :
    sumFor window live (a ++ b) = sumFor window live a + sumFor window live b := by
  simp [sumFor]

theorem sumFor_singleton (window : Window) (live : Bool) (e : Extension) :
    sumFor window live [e] = if e.window = window ∧ e.live = live then e.bytes else 0 := by
  by_cases h : e.window = window ∧ e.live = live
  · simp [sumFor, h]
  · simp [sumFor, h]

/-- What has been applied or reported to a window, saturating. -/
def totalFor (window : Window) (extensions : List Extension) : ℕ :=
  saturate ((extensions.filter fun e => e.window = window).map (·.bytes)).sum

theorem totalFor_eq (window : Window) (extensions : List Extension) :
    totalFor window extensions =
      saturate (sumFor window true extensions + sumFor window false extensions) := by
  rw [totalFor]
  congr 1
  induction extensions with
  | nil => rfl
  | cons e rest ih =>
    obtain ⟨w, bytes, live⟩ := e
    by_cases hw : w = window <;> cases live <;>
      simp [sumFor, hw] at ih ⊢ <;> omega

/-- What is pending for a window. -/
def pendingFor (credit : PendingCredit) : Window → ℕ
  | some stream => ((credit.streams.filter fun entry => entry.1 = stream).map (·.2)).sum
  | none => credit.connection

theorem sumFor_pendingList (credit : PendingCredit) (window : Window) (live here : Bool) :
    sumFor window live ((pendingList credit).map fun p => ⟨p.1, p.2, here⟩) =
      if live = here then pendingFor credit window else 0 := by
  have hstreams (streams : List (StreamId × ℕ)) :
      sumFor window live (streams.map fun entry => ⟨some entry.1, entry.2, here⟩) =
        if live = here then pendingFor { streams } window else 0 := by
    induction streams with
    | nil => cases window <;> simp [sumFor, pendingFor]
    | cons entry rest ih =>
      rw [List.map_cons, ← List.singleton_append, sumFor_append, sumFor_singleton, ih]
      by_cases hlive : live = here
      · cases window with
        | none => simp [pendingFor, hlive]
        | some stream =>
          by_cases hentry : entry.1 = stream <;> simp [pendingFor, hentry, hlive]
      · simp [hlive, Ne.symm hlive]
  rw [pendingList, List.map_append, List.map_map, sumFor_append]
  refine (congrArg (· + _) (hstreams credit.streams)).trans ?_
  by_cases hlive : live = here
  · cases window with
    | none => by_cases hzero : 0 < credit.connection <;> simp [sumFor, pendingFor, hlive, hzero]; omega
    | some stream => by_cases hzero : 0 < credit.connection <;> simp [sumFor, pendingFor, hlive, hzero]
  · by_cases hzero : 0 < credit.connection <;> simp [sumFor, hlive, hzero, Ne.symm hlive]

/-! ## Deferring -/

theorem addTo_keys (stream : StreamId) (bytes : ℕ) (streams : List (StreamId × ℕ)) :
    (addTo stream bytes streams).map Prod.fst =
      if stream ∈ streams.map Prod.fst then streams.map Prod.fst
      else streams.map Prod.fst ++ [stream] := by
  induction streams with
  | nil => simp [addTo]
  | cons entry rest ih =>
    obtain ⟨id, held⟩ := entry
    by_cases hid : id = stream
    · simp [addTo, hid]
    · rw [addTo, if_neg hid, List.map_cons, ih]
      by_cases hmem : stream ∈ rest.map Prod.fst
      · simp [hmem, Ne.symm hid]
      · simp [hmem, Ne.symm hid]

variable {stream : StreamId} {streams : List (StreamId × ℕ)}

theorem addTo_nodup {bytes : ℕ}
    (h : (streams.map Prod.fst).Nodup) : ((addTo stream bytes streams).map Prod.fst).Nodup := by
  rw [addTo_keys]
  split
  · exact h
  · rename_i hnew
    refine List.nodup_append.mpr ⟨h, by simp, ?_⟩
    rintro id hid _ hlast rfl
    exact hnew (List.mem_singleton.mp hlast ▸ hid)

theorem filter_of_not_mem
    (h : stream ∉ streams.map Prod.fst) : streams.filter (fun entry => entry.1 = stream) = [] := by
  rw [List.filter_eq_nil_iff]
  intro entry hentry
  simp only [decide_eq_true_eq]
  rintro rfl
  exact h (List.mem_map_of_mem hentry)

theorem pendingFor_addTo {bytes : ℕ}
    (h : (streams.map Prod.fst).Nodup) (id : StreamId) :
    saturate (pendingFor { streams := addTo stream bytes streams } (some id)) =
      saturate (pendingFor { streams } (some id) + if id = stream then bytes else 0) := by
  induction streams with
  | nil =>
    by_cases hid : stream = id
    · simp [addTo, pendingFor, hid]
    · simp [addTo, pendingFor, hid, Ne.symm hid]
  | cons entry rest ih =>
    obtain ⟨key, held⟩ := entry
    rw [List.map_cons, List.nodup_cons] at h
    by_cases hkey : key = stream
    · subst hkey
      rw [addTo, if_pos rfl]
      by_cases hid : id = key
      · subst hid
        simp only [pendingFor, List.filter_cons, decide_true, if_true, filter_of_not_mem h.1,
          List.map_cons, List.map_nil, List.sum_cons, List.sum_nil, saturatingAdd, saturate]
        omega
      · simp [pendingFor, hid, Ne.symm hid]
    · rw [addTo, if_neg hkey]
      have hrest := ih h.2
      by_cases hid : key = id
      · subst hid
        simp only [pendingFor, List.filter_cons, decide_true, if_true, List.map_cons, List.sum_cons,
          if_neg hkey, saturate] at hrest ⊢
        omega
      · simpa [pendingFor, hid] using hrest

theorem pendingFor_defer {credit : PendingCredit} (h : (credit.streams.map Prod.fst).Nodup)
    (window : Window) (bytes : ℕ) (w : Window) :
    saturate (pendingFor (credit.defer window bytes) w) =
      saturate (pendingFor credit w + if w = window then bytes else 0) := by
  cases window with
  | none =>
    cases w with
    | none =>
      simp only [QmuxHttp3Join.PendingCredit.defer, pendingFor, saturatingAdd, saturate, if_true]
      omega
    | some id => simp [QmuxHttp3Join.PendingCredit.defer, pendingFor]
  | some stream =>
    cases w with
    | none => simp [QmuxHttp3Join.PendingCredit.defer, pendingFor]
    | some id =>
      simp only [Option.some.injEq]
      exact pendingFor_addTo h id

/-! ## The books -/

/-- What has been reported has been applied or is pending, and nothing is pending behind an
ending. -/
structure Balanced (reports : List Extension) (s : Inner β ν) : Prop where
  quiet : s.ending.isSome = true → s.credit.isEmpty = true
  keys : (s.credit.streams.map Prod.fst).Nodup
  sums : ∀ window live, saturate (sumFor window live s.extensions +
      if live = s.conn.terminal.isNone then pendingFor s.credit window else 0) =
    saturate (sumFor window live reports)
  log : creditLog s.conn.conn.calls =
    (s.extensions.filter (·.live)).map fun e => (e.window, e.bytes)

section Balanced
variable [Dwnx ν] {reports : List Extension} {s t : Inner β ν}

omit [Dwnx ν] in
theorem balanced_new (conn : Connection β ν) (h : conn.conn.calls = []) :
    Balanced [] (Inner.new conn) := by
  refine ⟨fun _ => rfl, List.nodup_nil, ?_, ?_⟩
  · intro window live
    have hpending : pendingFor (Inner.new conn).credit window = 0 := by cases window <;> rfl
    rw [hpending, ite_self]
    rfl
  · show creditLog conn.conn.calls = []
    rw [h]
    rfl

theorem Balanced.applied (h : Balanced reports s)
    (ht : Applied (pendingList s.credit) { s with credit := {} } t) :
    Balanced reports t ∧ t.credit = {} := by
  have hcredit : t.credit = {} := by
    obtain ⟨_, _, _, _, rfl⟩ := ht.same
    rfl
  refine ⟨⟨fun _ => by rw [hcredit]; rfl, by rw [hcredit]; exact List.nodup_nil, ?_, ?_⟩, hcredit⟩
  · intro window live
    have hpending : pendingFor t.credit window = 0 := by
      rw [hcredit]
      cases window <;> rfl
    rw [ht.extensions, sumFor_append, sumFor_pendingList, hpending, ite_self, Nat.add_zero]
    exact h.sums window live
  · rw [ht.log, ht.extensions, List.filter_append, List.map_append, ← h.log]
    congr 1
    cases s.conn.terminal.isNone <;> simp [List.filter_map, Function.comp_def]

theorem Balanced.flush (h : Balanced reports s) :
    ∃ t, flushCredit s = .ok () t ∧ Balanced reports t ∧ t.credit = {} := by
  obtain ⟨t, hflush, happlied⟩ := flushCredit_applied h.quiet
  exact ⟨t, hflush, h.applied happlied⟩

theorem creditLog_lower {D : Prop} {c d : Connection β ν} (h : ReflTransGen (LowerStep D) c d) :
    creditLog d.conn.calls = creditLog c.conn.calls := by
  refine invariant_of_steps (I := fun d : Connection β ν =>
    creditLog d.conn.calls = creditLog c.conn.calls) ?_ h rfl
  intro a b hstep ha
  cases hstep with
  | native calls =>
    obtain ⟨new, hnew, hcalls⟩ := calls.calls
    have hnone : creditLog new = [] := by
      rw [creditLog, List.filterMap_eq_nil_iff]
      intro call hcall
      cases call <;> first | rfl | exact absurd (hcalls _ hcall) (by simp [isCredit])
    rw [hnew, creditLog_append, hnone, List.append_nil]
    exact ha
  | latch error =>
    rw [Connection.latch_eq]
    exact ha
  | queueClose reason _ _ =>
    rw [queued_eq]
    exact ha
  | stream _ => exact ha
  | signal _ => exact ha
  | framer _ => exact ha
  | pending _ => exact ha
  | deliver _ _ => exact ha
  | credit _ => exact ha
  | hand _ _ => exact ha
  | commit _ _ => exact ha
  | advance _ => exact ha
  | reset _ => exact ha
  | written _ _ => exact ha
  | shutdown _ _ _ => exact ha

theorem Balanced.step {D : Prop} (h : Balanced reports s ∧ s.credit = {}) (hstep : JoinStep D s t) :
    Balanced reports t ∧ t.credit = {} := by
  obtain ⟨h, hcredit⟩ := h
  have hpending (window : Window) : pendingFor s.credit window = 0 := by
    rw [hcredit]
    cases window <;> rfl
  -- with nothing pending the sums do not depend on whether the layer below has ended
  have hbooks (t : Inner β ν) (hsame : t.credit = s.credit) (hext : t.extensions = s.extensions)
      (hlog : creditLog t.conn.conn.calls = creditLog s.conn.conn.calls) : Balanced reports t := by
    refine ⟨fun _ => by rw [hsame, hcredit]; rfl, by rw [hsame]; exact h.keys, ?_, ?_⟩
    · intro window live
      have hsums := h.sums window live
      rw [hpending, ite_self] at hsums
      rw [hsame, hext, hpending, ite_self]
      exact hsums
    · rw [hlog, hext]
      exact h.log
  cases hstep with
  | lower steps => exact ⟨hbooks _ rfl rfl (creditLog_lower steps), hcredit⟩
  | ended error =>
    unfold Inner.endWith
    split
    · exact ⟨hbooks _ rfl rfl rfl, hcredit⟩
    · exact ⟨h, hcredit⟩
  | released _ _ => exact ⟨hbooks _ rfl rfl rfl, hcredit⟩
  | wakers _ _ _ _ => exact ⟨hbooks _ rfl rfl rfl, hcredit⟩
  | tail _ _ => exact ⟨hbooks _ rfl rfl rfl, hcredit⟩
  | events _ _ _ _ _ => exact ⟨hbooks _ rfl rfl rfl, hcredit⟩

/-! ## Reports -/

omit [Dwnx ν] in
theorem Balanced.report (h : Balanced reports s) (hopen : s.ending.isSome = false) (window : Window)
    (bytes : ℕ) :
    Balanced (reports ++ [⟨window, bytes, s.conn.terminal.isNone⟩])
      { s with credit := s.credit.defer window bytes } := by
  refine ⟨fun hsome => absurd hsome (by simp [hopen]), ?_, ?_, h.log⟩
  · cases window with
    | none => exact h.keys
    | some stream => exact addTo_nodup h.keys
  · intro w live
    have hsums := h.sums w live
    have hdefer := pendingFor_defer h.keys window bytes w
    rw [sumFor_append, sumFor_singleton]
    by_cases hlive : live = s.conn.terminal.isNone
    · have hwindow : (if window = w ∧ s.conn.terminal.isNone = live then bytes else 0) =
          if w = window then bytes else 0 := by
        simp only [hlive, and_true, eq_comm]
      rw [if_pos hlive] at hsums ⊢
      rw [hwindow]
      calc saturate (sumFor w live s.extensions + pendingFor (s.credit.defer window bytes) w)
          = saturate (sumFor w live s.extensions +
              (pendingFor s.credit w + if w = window then bytes else 0)) := saturate_add rfl hdefer
        _ = saturate (sumFor w live s.extensions + pendingFor s.credit w +
              if w = window then bytes else 0) := by rw [Nat.add_assoc]
        _ = saturate (sumFor w live reports + if w = window then bytes else 0) :=
          saturate_add hsums rfl
    · simp only [hlive, if_false, Ne.symm hlive, and_false] at hsums ⊢
      exact hsums

omit [Dwnx ν] in
theorem Balanced.report_zero (h : Balanced reports s) (window : Window) :
    Balanced (reports ++ [⟨window, 0, s.conn.terminal.isNone⟩]) s := by
  refine ⟨h.quiet, h.keys, ?_, h.log⟩
  intro w live
  rw [sumFor_append, sumFor_singleton, ite_self, Nat.add_zero]
  exact h.sums w live

omit [Dwnx ν] in
theorem Balanced.wakeDeferred (h : Balanced reports s) : Balanced reports s.wakeDeferred :=
  ⟨h.quiet, h.keys, h.sums, h.log⟩

theorem deferCredit_balanced (h : Balanced reports s) (hopen : s.ending.isSome = false)
    (window : Window) (bytes : ℕ) :
    ∃ t, deferCredit window bytes s = .ok () t ∧
      Balanced (reports ++ [⟨window, bytes, s.conn.terminal.isNone⟩]) t := by
  rw [deferCredit]
  split
  · rename_i hzero
    subst hzero
    exact ⟨s, rfl, h.report_zero window⟩
  · rw [bind_ok modify_apply, bind_ok get_apply]
    have hreport := h.report hopen window bytes
    split
    · obtain ⟨t, hflush, hbalanced, -⟩ := hreport.flush
      exact ⟨t, hflush, hbalanced⟩
    · exact ⟨_, rfl, hreport⟩

end Balanced

/-! ## Runs -/

section Runs
variable [Dwnx ν] [AsyncByteStream β] {σ : Type} [StreamSource σ]

/-- The report that an operation makes to a connection that has not ended. -/
def reportOf (op : JoinOp σ) (s : Inner β ν) : List Extension :=
  match op with
  | .extendCredit window bytes =>
    if s.ending.isSome then [] else [⟨window, bytes, s.conn.terminal.isNone⟩]
  | _ => []

/-- The reports made in a run while the connection had not ended. -/
def reported (fuel : ℕ) : List (JoinOp σ) → Inner β ν → List Extension
  | [], _ => []
  | op :: rest, s => reportOf op s ++ reported fuel rest (op.step fuel s).2

variable {reports : List Extension} {s : Inner β ν}

theorem extendCredit_step (fuel : ℕ) (window : Window) (bytes : ℕ)
    (h : Balanced reports s) :
    Balanced (reports ++ reportOf (.extendCredit window bytes : JoinOp σ) s)
      ((JoinOp.extendCredit window bytes : JoinOp σ).step fuel s).2 := by
  have hstep {t : Inner β ν} (hrun : QmuxHttp3Join.extendCredit window bytes s = .ok () t) :
      ((JoinOp.extendCredit window bytes : JoinOp σ).step fuel s).2 = t.wakeDeferred := by
    have hprogram : (JoinOp.extendCredit window bytes : JoinOp σ).program fuel s = .ok .done t :=
      bind_ok hrun
    rw [JoinOp.step, outcome, hprogram]
  cases hopen : s.ending.isSome with
  | true =>
    rw [hstep (t := s) (by rw [QmuxHttp3Join.extendCredit, bind_ok get_apply, if_pos hopen]; rfl),
      reportOf, if_pos hopen, List.append_nil]
    exact h.wakeDeferred
  | false =>
    obtain ⟨t, hdefer, hbalanced⟩ := deferCredit_balanced h hopen window bytes
    have hrun : QmuxHttp3Join.extendCredit window bytes s = .ok () t := by
      rw [QmuxHttp3Join.extendCredit, bind_ok get_apply, if_neg (by simp [hopen])]
      exact hdefer
    rw [hstep hrun, reportOf, if_neg (by simp [hopen])]
    exact hbalanced.wakeDeferred

theorem flushing_step (fuel : ℕ) (op : JoinOp σ)
    (h : Balanced reports s) (hflushes : flushes op s = true) :
    Balanced reports (op.step fuel s).2 ∧ (op.step fuel s).2.credit = {} := by
  obtain ⟨t, hflush, ht⟩ := h.flush
  exact invariant_of_steps (I := fun u => Balanced reports u ∧ u.credit = {})
    (fun _ _ hstep hu => Balanced.step hu hstep) (step_behind_flush fuel op hflushes hflush) ht

theorem balanced_step (fuel : ℕ) (op : JoinOp σ)
    (h : Balanced reports s) : Balanced (reports ++ reportOf op s) (op.step fuel s).2 := by
  cases hflushes : flushes op s with
  | true =>
    have hnone : reportOf op s = [] := by
      cases op <;> first | rfl | exact absurd hflushes (by simp [flushes])
    rw [hnone, List.append_nil]
    exact (flushing_step fuel op h hflushes).1
  | false =>
    rcases step_of_not_flushes fuel hflushes with ⟨window, bytes, rfl⟩ | ⟨⟨cx, rfl⟩, hsame⟩
    · exact extendCredit_step fuel window bytes h
    · have hnone : reportOf (.pollFinish cx : JoinOp σ) s = [] := rfl
      rw [hsame, hnone, List.append_nil]
      exact h.wakeDeferred

theorem balanced_run (fuel : ℕ) (ops : List (JoinOp σ)) :
    ∀ {reports : List Extension} {s : Inner β ν}, Balanced reports s →
      Balanced (reports ++ reported fuel ops s) (run (JoinOp.step fuel) ops s).2 := by
  induction ops with
  | nil =>
    intro reports s h
    rw [reported, List.append_nil]
    exact h
  | cons op rest ih =>
    intro reports s h
    rw [reported, ← List.append_assoc]
    exact ih (balanced_step fuel op h)

/-! ## What has been applied -/

/-- What the native calls have added to a window, saturating. -/
def loggedFor (window : Window) (calls : List NativeCall) : ℕ :=
  saturate (((creditLog calls).filter fun entry => entry.1 = window).map (·.2)).sum

/-- Nothing is pending, every window has been extended by what was reported for it, and what was
reported while the layer below was live has reached dwnx. -/
def Settled (reports : List Extension) (s : Inner β ν) : Prop :=
  s.credit.isEmpty = true ∧ ∀ window, totalFor window s.extensions = totalFor window reports ∧
    loggedFor window s.conn.conn.calls = totalFor window (reports.filter (·.live))

omit [AsyncByteStream β] [Dwnx ν] in
theorem Balanced.settled (h : Balanced reports s)
    (hcredit : s.credit = {}) : Settled reports s := by
  have hsums (window : Window) (live : Bool) :
      saturate (sumFor window live s.extensions) = saturate (sumFor window live reports) := by
    have hpending : pendingFor s.credit window = 0 := by
      rw [hcredit]
      cases window <;> rfl
    have hsum := h.sums window live
    rwa [hpending, ite_self] at hsum
  refine ⟨by rw [hcredit]; rfl, fun window => ⟨?_, ?_⟩⟩
  · rw [totalFor_eq, totalFor_eq]
    exact saturate_add (hsums window true) (hsums window false)
  · have hlog : loggedFor window s.conn.conn.calls = saturate (sumFor window true s.extensions) := by
      simp [loggedFor, h.log, List.filter_map, List.filter_filter, Function.comp_def, sumFor]
    have hlive : totalFor window (reports.filter (·.live)) =
        saturate (sumFor window true reports) := by
      rw [totalFor, List.filter_filter, sumFor]
      congr 4
      funext e
      simp
    rw [hlog, hlive]
    exact hsums window true

/-! ## Once per run of reports -/

/-- Reports of some streams are being held back, and nothing was applied since `start`. -/
structure Held (streams : List StreamId) (start s : Inner β ν) : Prop where
  extensions : s.extensions = start.extensions
  keys : (s.credit.streams.map Prod.fst).Nodup
  known : s.credit.streams.map Prod.fst ⊆ streams

variable {streams : List StreamId}

omit [AsyncByteStream β] in
theorem deferCredit_held {start : Inner β ν} (h : Held streams start s)
    (hfew : streams.toFinset.card < maxPendingStreams) {window : Window} (bytes : ℕ)
    (hwindow : ∀ stream, window = some stream → stream ∈ streams) :
    ∃ t, deferCredit window bytes s = .ok () t ∧ Held streams start t := by
  have hheld : Held streams start { s with credit := s.credit.defer window bytes } := by
    cases window with
    | none => exact ⟨h.extensions, h.keys, h.known⟩
    | some stream =>
      refine ⟨h.extensions, addTo_nodup h.keys, ?_⟩
      show (addTo stream bytes s.credit.streams).map Prod.fst ⊆ streams
      rw [addTo_keys]
      split
      · exact h.known
      · exact List.append_subset.mpr ⟨h.known, by simpa using hwindow stream rfl⟩
  rw [deferCredit]
  split
  · exact ⟨s, rfl, h⟩
  · rw [bind_ok modify_apply, bind_ok get_apply, if_neg]
    · exact ⟨_, rfl, hheld⟩
    · have hcard : (s.credit.defer window bytes).streams.length ≤ streams.toFinset.card := by
        rw [← List.length_map (f := Prod.fst), ← List.toFinset_card_of_nodup hheld.keys]
        refine Finset.card_le_card fun id hid => ?_
        exact List.mem_toFinset.mpr (hheld.known (List.mem_toFinset.mp hid))
      exact fun hlong => absurd (Nat.le_trans hlong hcard) (by omega)

theorem extendCredit_held (fuel : ℕ) {start : Inner β ν}
    (h : Held streams start s) (hfew : streams.toFinset.card < maxPendingStreams) {window : Window}
    (bytes : ℕ) (hwindow : ∀ stream, window = some stream → stream ∈ streams) :
    Held streams start ((JoinOp.extendCredit window bytes : JoinOp σ).step fuel s).2 := by
  have hrun : ∃ t, QmuxHttp3Join.extendCredit window bytes s = .ok () t ∧ Held streams start t := by
    rw [QmuxHttp3Join.extendCredit, bind_ok get_apply]
    split
    · exact ⟨s, rfl, h⟩
    · exact deferCredit_held h hfew bytes hwindow
  obtain ⟨t, hrun, ht⟩ := hrun
  have hprogram : (JoinOp.extendCredit window bytes : JoinOp σ).program fuel s = .ok .done t :=
    bind_ok hrun
  rw [JoinOp.step, outcome, hprogram]
  exact ⟨ht.extensions, ht.keys, ht.known⟩

/-- A run of reports. -/
def reporting (reports : List (Window × ℕ)) : List (JoinOp σ) :=
  reports.map fun report => .extendCredit report.1 report.2

theorem reporting_held (fuel : ℕ)
    (hfew : streams.toFinset.card < maxPendingStreams) (reports : List (Window × ℕ)) :
    ∀ {start s : Inner β ν}, Held streams start s → reports.filterMap Prod.fst ⊆ streams →
      Held streams start (run (JoinOp.step fuel) (reporting reports : List (JoinOp σ)) s).2 := by
  induction reports with
  | nil => intro start s h _; exact h
  | cons report rest ih =>
    intro start s h hsub
    refine ih (extendCredit_held fuel h hfew report.2 ?_) ?_
    · intro stream hstream
      exact hsub (List.mem_filterMap.mpr ⟨report, by simp, hstream⟩)
    · intro stream hstream
      obtain ⟨r, hr, hwindow⟩ := List.mem_filterMap.mp hstream
      exact hsub (List.mem_filterMap.mpr ⟨r, List.mem_cons_of_mem _ hr, hwindow⟩)

omit [AsyncByteStream β] in
theorem extensions_step {D : Prop} {t : Inner β ν} (hstep : JoinStep D s t) :
    t.extensions = s.extensions := by
  cases hstep with
  | ended error =>
    unfold Inner.endWith
    split <;> rfl
  | lower _ => rfl
  | released _ _ => rfl
  | wakers _ _ _ _ => rfl
  | tail _ _ => rfl
  | events _ _ _ _ _ => rfl

theorem extended_once (fuel : ℕ) {known : List Extension} (h : Balanced known s)
    (hcredit : s.credit = {}) (reports : List (Window × ℕ))
    (hfew : (reports.filterMap Prod.fst).toFinset.card < maxPendingStreams) {op : JoinOp σ}
    (hflushes : flushes op
      (run (JoinOp.step fuel) (reporting reports : List (JoinOp σ)) s).2 = true) :
    ∃ new, (op.step fuel
        (run (JoinOp.step fuel) (reporting reports : List (JoinOp σ)) s).2).2.extensions =
      s.extensions ++ new ∧ (new.map (·.window)).Nodup := by
  have hstart : Held (reports.filterMap Prod.fst) s s := by
    refine ⟨rfl, ?_, ?_⟩
    · rw [hcredit]; exact List.nodup_nil
    · rw [hcredit]; exact List.nil_subset _
  have hheld := reporting_held (σ := σ) fuel hfew reports hstart (List.Subset.refl _)
  have hbalanced := balanced_run fuel (reporting reports : List (JoinOp σ)) h
  obtain ⟨t, hflush, happlied⟩ := flushCredit_applied hbalanced.quiet
  have hend := invariant_of_steps (I := fun u : Inner β ν => u.extensions = t.extensions)
    (fun _ _ hstep hu => (extensions_step hstep).trans hu)
    (step_behind_flush fuel op hflushes hflush) rfl
  refine ⟨_, hend.trans (happlied.extensions.trans (congrArg (· ++ _) hheld.extensions)), ?_⟩
  rw [List.map_map, pendingList, List.map_append, List.map_map]
  refine List.nodup_append.mpr ⟨?_, ?_, ?_⟩
  · have hkeys := hheld.keys.map (Option.some_injective StreamId)
    rwa [List.map_map] at hkeys
  · split <;> simp
  · intro a ha b hb
    obtain ⟨entry, -, rfl⟩ := List.mem_map.mp ha
    split at hb
    · simp only [List.map_cons, List.map_nil, List.mem_singleton] at hb
      subst hb
      simp
    · exact absurd hb (by simp)

/-- After every run: no credit is pending behind an ending; a flush leaves every window extended
by what was reported for it, and so does every entry point that flushes; and a run of reports
over fewer than 64 streams extends each window at most once. -/
theorem creditBatching (fuel : ℕ) (ops : List (JoinOp σ)) (stream : β) (raw : ν) (role : Role)
    (readAhead : ℕ) :
    let start := Inner.new (Connection.new stream raw role readAhead)
    let s := (run (JoinOp.step fuel) ops start).2
    (s.ending.isSome = true → s.credit.isEmpty = true) ∧
    (∃ t, flushCredit s = .ok () t ∧ Settled (reported fuel ops start) t) ∧
    (∀ op : JoinOp σ, flushes op s = true →
      Settled (reported fuel ops start) (op.step fuel s).2) ∧
    ∀ (reports : List (Window × ℕ)) (op : JoinOp σ), s.credit.isEmpty = true →
      (reports.filterMap Prod.fst).toFinset.card < 64 →
      let t := (run (JoinOp.step fuel) (reporting reports : List (JoinOp σ)) s).2
      flushes op t = true →
        ∃ new, (op.step fuel t).2.extensions = s.extensions ++ new ∧ (new.map (·.window)).Nodup := by
  intro start s
  have h : Balanced (reported fuel ops start) s := balanced_run fuel ops (balanced_new _ rfl)
  refine ⟨h.quiet, ?_, ?_, ?_⟩
  · obtain ⟨t, hflush, ht, hcredit⟩ := h.flush
    exact ⟨t, hflush, ht.settled hcredit⟩
  · intro op hflushes
    obtain ⟨ht, hcredit⟩ := flushing_step fuel op h hflushes
    exact ht.settled hcredit
  · intro reports op hempty hfew t hflushes
    exact extended_once fuel h (PendingCredit.eq_of_isEmpty hempty) reports hfew hflushes

end Runs

/-- Two deliveries on one stream, each reported to its window and to the connection's. -/
def deliveries : List (JoinOp ScriptedSource) :=
  reporting [(some ⟨0, zero_le_maxVarint⟩, 3), (none, 3), (some ⟨0, zero_le_maxVarint⟩, 4), (none, 4)]

def fresh : Inner ScriptedStream ScriptedDwnx := .new (.new {} {} .client 16)

theorem creditBatching_two_deliveries :
    let s := (run (JoinOp.step 4) deliveries fresh).2
    s.extensions = [] ∧ Settled (reported 4 deliveries fresh) ((JoinOp.pollEvent 0 : JoinOp ScriptedSource).step 4 s).2 ∧
      loggedFor (some ⟨0, by decide⟩) ((JoinOp.pollEvent 0 : JoinOp ScriptedSource).step 4 s).2.conn.conn.calls = 7 := by
  intro s
  have h := creditBatching 4 deliveries ({} : ScriptedStream) ({} : ScriptedDwnx) .client 16
  exact ⟨by decide +kernel, h.2.2.1 (.pollEvent 0) (by decide +kernel), by decide +kernel⟩

end Ngnet.QmuxHttp3Credit
