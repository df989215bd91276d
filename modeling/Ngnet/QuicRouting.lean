import Ngnet.QuicEvictions

/-!
# Where the identifiers of connections lead

The table of routes is told of the identifiers that a connection is built with, of the one that its client chose,
and, once in a pass, of those that its handlers saw minted and retired since. Minted identifiers do not collide;
but one that waits in a mailbox leads nowhere yet, so a client can still choose it for a connection of its own,
and loses it in that pass. Where no client does, every identifier leads to the connection it was reported for.
-/

namespace Ngnet.QuicRouting
open QmuxVarints InterleavedPrograms QuicEndpoint QuicEndpointDriver QuicEndpointSteps QuicConnectionTable
open QuicEndpointProtocols QuicEvictions QuicScriptedHost

variable {κ σ π : Type} {w w' : World κ σ π} {i j c d : ℕ} {tracked tracked' : Tracked κ} {s s' : Core κ} {id : Bytes}

/-! ## Identifiers over time -/

def updateOf : Naming → RouteUpdate
  | .noted update => update
  | .chosen cid => .minted cid

/-- How the identifiers of a connection changed. -/
def updatesOf (c : ℕ) (noted : List (ℕ × Naming)) : List RouteUpdate :=
  (noted.filter (·.1 = c)).map fun entry => updateOf entry.2

/-- What the table of routes was told for an index. -/
def reportedTo (i : ℕ) (reported : List (ℕ × RouteUpdate)) : List RouteUpdate :=
  (reported.filter (·.1 = i)).map (·.2)

def liveAfter (id : Bytes) (live : Bool) : RouteUpdate → Bool
  | .minted cid => live || cid = id
  | .retired cid => live && cid ≠ id

/-- An identifier is in use behind some changes. -/
def isLive (id : Bytes) (updates : List RouteUpdate) : Bool := updates.foldl (liveAfter id) false

@[simp] theorem isLive_nil : isLive id [] = false := rfl

theorem isLive_append (id : Bytes) (updates more : List RouteUpdate) :
    isLive id (updates ++ more) = more.foldl (liveAfter id) (isLive id updates) := by
  simp [isLive]

theorem live_or_minted {live : Bool} (updates : List RouteUpdate) (h : updates.foldl (liveAfter id) live = true) :
    live = true ∨ .minted id ∈ updates := by
  induction updates generalizing live with
  | nil => exact .inl h
  | cons update updates ih =>
    rcases ih h with hlive | hmem
    · cases update with
      | minted cid =>
        simp only [liveAfter, Bool.or_eq_true, decide_eq_true_eq] at hlive
        rcases hlive with hlive | rfl
        · exact .inl hlive
        · exact .inr List.mem_cons_self
      | retired cid =>
        simp only [liveAfter, Bool.and_eq_true] at hlive
        exact .inl hlive.1
    · exact .inr (List.mem_cons_of_mem _ hmem)

theorem minted_of_isLive (updates : List RouteUpdate) (h : isLive id updates = true) : .minted id ∈ updates := by
  rcases live_or_minted updates h with hlive | hmem
  · cases hlive
  · exact hmem

@[simp] theorem updatesOf_append (c : ℕ) (noted more : List (ℕ × Naming)) :
    updatesOf c (noted ++ more) = updatesOf c noted ++ updatesOf c more := by
  simp [updatesOf]

theorem updatesOf_noted (c d : ℕ) (updates : List RouteUpdate) :
    updatesOf c (updates.map fun update => (d, .noted update)) = if d = c then updates else [] := by
  by_cases hd : d = c
  · simp [updatesOf, updateOf, List.filter_map, Function.comp_def, hd]
  · simp [updatesOf, List.filter_map, Function.comp_def, hd]

theorem updatesOf_chosen (c d : ℕ) (cid : Bytes) : updatesOf c [(d, .chosen cid)] = if d = c then [.minted cid] else [] := by
  by_cases hd : d = c
  · simp [updatesOf, updateOf, hd]
  · simp [updatesOf, hd]

@[simp] theorem reportedTo_append (i : ℕ) (reported more : List (ℕ × RouteUpdate)) :
    reportedTo i (reported ++ more) = reportedTo i reported ++ reportedTo i more := by
  simp [reportedTo]

theorem reportedTo_map (i j : ℕ) (updates : List RouteUpdate) :
    reportedTo i (updates.map fun update => (j, update)) = if j = i then updates else [] := by
  by_cases hj : j = i
  · simp [reportedTo, List.filter_map, Function.comp_def, hj]
  · simp [reportedTo, List.filter_map, Function.comp_def, hj]

variable {update : RouteUpdate} {noted : List (ℕ × Naming)}

theorem mem_updatesOf (h : update ∈ updatesOf c noted) :
    ∃ naming, (c, naming) ∈ noted ∧ updateOf naming = update := by
  obtain ⟨⟨d, naming⟩, hmem, rfl⟩ := List.mem_map.mp h
  obtain ⟨hmem, hd⟩ := List.mem_filter.mp hmem
  obtain rfl : d = c := of_decide_eq_true hd
  exact ⟨naming, ‹_›, rfl⟩

/-- The later of two connections mints an identifier that the earlier has. -/
def clashes (entry later : ℕ × Naming) : Bool :=
  match updateOf entry.2, later.2 with
  | .minted id, .noted (.minted cid) => id = cid && entry.1 ≠ later.1
  | _, _ => false

/-- Minted identifiers do not collide. -/
def Distinct (noted : List (ℕ × Naming)) : Prop := noted.Pairwise fun entry later => clashes entry later = false

/-- Behind some entries, the connection of this one retires only an identifier of its own. -/
def retiresOwn (before : List (ℕ × Naming)) (entry : ℕ × Naming) : Bool :=
  match updateOf entry.2 with
  | .retired cid => isLive cid (updatesOf entry.1 before)
  | .minted _ => true

/-- A connection retires only an identifier of its own that is in use. -/
def RetiresOwn (noted : List (ℕ × Naming)) : Prop :=
  ∀ n < noted.length, ∀ entry ∈ noted[n]?, retiresOwn (noted.take n) entry = true

instance (noted : List (ℕ × Naming)) : Decidable (Distinct noted) := inferInstanceAs (Decidable (List.Pairwise _ _))

instance (noted : List (ℕ × Naming)) : Decidable (RetiresOwn noted) := inferInstanceAs (Decidable (∀ n < _, _))

theorem Distinct.of_earlier {noted' : List (ℕ × Naming)} (h : Distinct noted') (hstart : noted <+: noted') :
    Distinct noted := h.sublist hstart.sublist

theorem RetiresOwn.of_earlier {noted' : List (ℕ × Naming)} (h : RetiresOwn noted') (hstart : noted <+: noted') :
    RetiresOwn noted := by
  obtain ⟨more, rfl⟩ := hstart
  intro n hn entry hentry
  have htake := h n (hn.trans_le (by simp)) entry (by rwa [List.getElem?_append_left hn])
  rwa [List.take_append_of_le_length hn.le] at htake

theorem RetiresOwn.live (h : RetiresOwn noted) {before after : List RouteUpdate}
    (heq : updatesOf c noted = before ++ .retired id :: after) : isLive id before = true := by
  obtain ⟨entries, rest, hsplit, hbefore, hrest⟩ := List.map_eq_append_iff.mp heq
  obtain ⟨entry, rest, rfl, hentry, -⟩ := List.map_eq_cons_iff.mp hrest
  obtain ⟨first, last, rfl, hfirst, hlast⟩ := List.filter_eq_append_iff.mp hsplit
  obtain ⟨skipped, last', rfl, hskipped, hentry', -⟩ := List.filter_eq_cons_iff.mp hlast
  obtain rfl : entry.1 = c := of_decide_eq_true hentry'
  have hlength : (first ++ skipped).length < (first ++ (skipped ++ entry :: last')).length := by simp
  have hget : (first ++ (skipped ++ entry :: last'))[(first ++ skipped).length]? = some entry := by simp
  have hlive := h _ hlength entry hget
  rw [retiresOwn, hentry] at hlive
  have htake : (first ++ (skipped ++ entry :: last')).take (first ++ skipped).length = first ++ skipped := by
    rw [← List.append_assoc, List.take_left]
  have hskip : updatesOf entry.1 skipped = [] := by
    rw [updatesOf, List.filter_eq_nil_iff.mpr hskipped, List.map_nil]
  have hupdates : updatesOf entry.1 (first ++ skipped) = before := by
    rw [updatesOf_append, hskip, List.append_nil, updatesOf, hfirst, hbefore]
  rwa [htake, hupdates] at hlive

/-! ## The table -/

/-- The identifier that a change is about. -/
def subjectOf : RouteUpdate → Bytes
  | .minted cid | .retired cid => cid

theorem mem_applyRoute_iff {routes : List (Bytes × ℕ)}
    (hothers : ∀ j, (subjectOf update, j) ∈ routes → j = i) :
    (id, j) ∈ World.applyRoute i routes update ↔
      if j = i then liveAfter id (decide ((id, i) ∈ routes)) update = true else (id, j) ∈ routes := by
  cases update with
  | minted cid =>
    have hmem : (id, j) ∈ World.applyRoute i routes (.minted cid) ↔ (id = cid ∧ j = i) ∨ ((id, j) ∈ routes ∧ id ≠ cid) := by
      simp [World.applyRoute, World.insertRoute]
    rw [hmem]
    by_cases hj : j = i
    · subst hj
      by_cases hid : id = cid
      · simp [liveAfter, hid]
      · simp [liveAfter, hid, Ne.symm hid]
    · rw [if_neg hj]
      refine ⟨fun h => (h.resolve_left fun h => hj h.2).1, fun h => .inr ⟨h, ?_⟩⟩
      rintro rfl
      exact hj (hothers j h)
  | retired cid =>
    have hmem : (id, j) ∈ World.applyRoute i routes (.retired cid) ↔ (id, j) ∈ routes ∧ id ≠ cid := by
      simp [World.applyRoute]
    rw [hmem]
    by_cases hj : j = i
    · subst hj
      by_cases hid : id = cid
      · simp [liveAfter, hid]
      · simp [liveAfter, hid, Ne.symm hid]
    · rw [if_neg hj]
      refine ⟨fun h => h.1, fun h => ⟨h, ?_⟩⟩
      rintro rfl
      exact hj (hothers j h)

theorem mem_applyRoutes_iff {routes : List (Bytes × ℕ)} {updates : List RouteUpdate}
    (hothers : ∀ update ∈ updates, ∀ j, (subjectOf update, j) ∈ routes → j = i) :
    (id, j) ∈ updates.foldl (World.applyRoute i) routes ↔
      if j = i then updates.foldl (liveAfter id) (decide ((id, i) ∈ routes)) = true else (id, j) ∈ routes := by
  induction updates generalizing routes with
  | nil => simp +contextual
  | cons update updates ih =>
    have hfirst : ∀ j, (id, j) ∈ World.applyRoute i routes update ↔
        if j = i then liveAfter id (decide ((id, i) ∈ routes)) update = true else (id, j) ∈ routes :=
      fun j => mem_applyRoute_iff (hothers update List.mem_cons_self)
    rw [List.foldl_cons, List.foldl_cons, ih]
    · by_cases hj : j = i
      · have hlive : decide ((id, i) ∈ World.applyRoute i routes update) = liveAfter id (decide ((id, i) ∈ routes)) update := by
          rw [Bool.eq_iff_iff, decide_eq_true_iff, hfirst i, if_pos rfl]
        simp only [if_pos hj, hlive]
      · have hkept := hfirst j
        rw [if_neg hj] at hkept
        simp only [if_neg hj, hkept]
    · intro update' hmem k hk
      rcases mem_applyRoute hk with hk | hk
      · exact hothers update' (List.mem_cons_of_mem _ hmem) k hk
      · exact hk

/-! ## What is routed -/

/-- An identifier is routed to an entry, or is about to be. -/
def Holds (s : Core κ) (i : ℕ) (id : Bytes) : Prop := ∃ tracked, s.tracked i = some tracked ∧
  (isLive id (reportedTo i s.reported) = true ∨ .minted id ∈ (s.shareds tracked.shared).routes)

theorem Holds.entry (h : Holds s i id) : ∃ tracked, s.tracked i = some tracked := by
  obtain ⟨tracked, htracked, -⟩ := h
  exact ⟨tracked, htracked⟩

structure Routed (s : Core κ) : Prop where
  routes : ∀ id i, (id, i) ∈ s.routes ↔ (s.tracked i).isSome = true ∧ isLive id (reportedTo i s.reported) = true
  /-- What a connection noted and the table was not told of waits in its mailbox. -/
  noted : ∀ i tracked, s.tracked i = some tracked →
    updatesOf tracked.shared s.noted = reportedTo i s.reported ++ (s.shareds tracked.shared).routes
  apart : ∀ i j id, Holds s i id → Holds s j id → i = j
  fresh : ∀ i, s.nextIndex ≤ i → reportedTo i s.reported = []
  unasked : ∀ c ∈ s.asked, updatesOf c s.noted = [] ∧ (s.shareds c).routes = []
  unnamed : ∀ c, s.created ≤ c → updatesOf c s.noted = []
  ready : ∀ d ∈ s.ready, d.shared < s.created ∧ d.shared ∉ s.asked
  owned : ∀ c ∈ s.owned, c < s.created ∧ c ∉ s.asked

/-- A change that leaves all identifiers where they are. -/
structure SameNames (s s' : Core κ) : Prop where
  tracked : ∀ i, (s'.tracked i).map (·.shared) = (s.tracked i).map (·.shared)
  routes : s'.routes = s.routes
  noted : s'.noted = s.noted
  reported : s'.reported = s.reported
  nextIndex : s'.nextIndex = s.nextIndex
  created : s.created ≤ s'.created
  shareds : ∀ c < s.created, (s'.shareds c).routes = (s.shareds c).routes
  asked : ∀ c ∈ s'.asked, c ∈ s.asked ∨ s.created ≤ c ∧ (s'.shareds c).routes = []
  ready : ∀ d ∈ s'.ready, d ∈ s.ready ∨ ∃ i tracked, s.tracked i = some tracked ∧ tracked.shared = d.shared
  owned : ∀ c ∈ s'.owned, c ∈ s.owned ∨ ∃ d ∈ s.ready, d.shared = c

theorem SameNames.entry (h : SameNames s s') (hi : s'.tracked i = some tracked') :
    ∃ tracked, s.tracked i = some tracked ∧ tracked.shared = tracked'.shared := by
  have heq := h.tracked i
  rw [hi, Option.map_some] at heq
  obtain ⟨tracked, htracked, hshared⟩ := Option.map_eq_some_iff.mp heq.symm
  exact ⟨tracked, htracked, hshared⟩

theorem Routed.of_same (hsound : Sound s) (h : Routed s) (hsame : SameNames s s') : Routed s' := by
  -- No connection that was known before is now to be dialled.
  have hknown : ∀ c, c < s.created → c ∉ s.asked → c < s'.created ∧ c ∉ s'.asked := by
    intro c hlt hnot
    refine ⟨hlt.trans_le hsame.created, fun hc => ?_⟩
    rcases hsame.asked c hc with hc | ⟨hle, -⟩
    · exact hnot hc
    · exact absurd hlt hle.not_gt
  have hholds : ∀ i id, Holds s' i id → Holds s i id := by
    rintro i id ⟨tracked', hi, hlive⟩
    obtain ⟨tracked, htracked, hshared⟩ := hsame.entry hi
    refine ⟨tracked, htracked, ?_⟩
    rwa [hsame.reported, ← hshared, hsame.shareds _ (hsound.tracked i tracked htracked).2.1] at hlive
  constructor
  case routes =>
    intro id i
    have hsome : (s'.tracked i).isSome = (s.tracked i).isSome := by
      simpa using congrArg Option.isSome (hsame.tracked i)
    rw [hsame.routes, hsame.reported, hsome]
    exact h.routes id i
  case noted =>
    intro i tracked' hi
    obtain ⟨tracked, htracked, hshared⟩ := hsame.entry hi
    rw [hsame.noted, hsame.reported, ← hshared, hsame.shareds _ (hsound.tracked i tracked htracked).2.1]
    exact h.noted i tracked htracked
  case apart => exact fun i j id hi hj => h.apart i j id (hholds i id hi) (hholds j id hj)
  case fresh =>
    intro i hi
    rw [hsame.reported]
    exact h.fresh i (hsame.nextIndex ▸ hi)
  case unasked =>
    intro c hc
    rw [hsame.noted]
    rcases hsame.asked c hc with hc | ⟨hle, hroutes⟩
    · rw [hsame.shareds c (hsound.below c hc)]
      exact h.unasked c hc
    · exact ⟨h.unnamed c hle, hroutes⟩
  case unnamed =>
    intro c hc
    rw [hsame.noted]
    exact h.unnamed c (hsame.created.trans hc)
  case ready =>
    intro d hd
    rcases hsame.ready d hd with hd | ⟨i, tracked, htracked, hshared⟩
    · exact hknown _ (h.ready d hd).1 (h.ready d hd).2
    · obtain ⟨-, hlt, hnot⟩ := hsound.tracked i tracked htracked
      exact hshared ▸ hknown _ hlt hnot
  case owned =>
    intro c hc
    rcases hsame.owned c hc with hc | ⟨d, hd, rfl⟩
    · exact hknown _ (h.owned c hc).1 (h.owned c hc).2
    · exact hknown _ (h.ready d hd).1 (h.ready d hd).2

theorem Routed.noted_of_holds (h : Routed s) (hi : s.tracked i = some tracked) (hholds : Holds s i id) :
    .minted id ∈ updatesOf tracked.shared s.noted := by
  obtain ⟨tracked', hi', hlive⟩ := hholds
  obtain rfl : tracked = tracked' := Option.some.inj (hi.symm.trans hi')
  rw [h.noted i tracked hi]
  rcases hlive with hlive | hwaits
  · exact List.mem_append_left _ (minted_of_isLive _ hlive)
  · exact List.mem_append_right _ hwaits

theorem Routed.minted_apart (h : Routed s) {updates : List RouteUpdate}
    (hdistinct : Distinct (s.noted ++ updates.map fun update => (c, .noted update))) (hmem : .minted id ∈ updates)
    (hj : s.tracked j = some tracked) (hholds : Holds s j id) : tracked.shared = c := by
  obtain ⟨naming, hnaming, hid⟩ := mem_updatesOf (h.noted_of_holds hj hholds)
  have hlater : (c, Naming.noted (.minted id)) ∈ updates.map fun update => (c, .noted update) := List.mem_map_of_mem hmem
  have hclash := (List.pairwise_append.mp hdistinct).2.2 _ hnaming _ hlater
  simpa [clashes, hid] using hclash

theorem Routed.note (hsound : Sound s) (h : Routed s) (f : ConnectionShared → ConnectionShared) (updates : List RouteUpdate)
    (more : List (ℕ × Naming)) (hc : c < s.created) (hasked : c ∉ s.asked)
    (hf : (f (s.shareds c)).routes = (s.shareds c).routes ++ updates)
    (hmore : ∀ d, updatesOf d more = if c = d then updates else [])
    (hnew : ∀ j tracked id, s.tracked j = some tracked → .minted id ∈ updates → Holds s j id → tracked.shared = c) :
    Routed { s.modifyShared c f with noted := s.noted ++ more } := by
  have hother : ∀ d, d ≠ c → ((s.modifyShared c f).shareds d).routes = (s.shareds d).routes := by
    intro d hd
    simp [Core.modifyShared, hd]
  have hown : ((s.modifyShared c f).shareds c).routes = (s.shareds c).routes ++ updates := by
    simpa [Core.modifyShared] using hf
  -- What an entry has now it had before, or its connection has just minted it.
  have hholds : ∀ i id, Holds { s.modifyShared c f with noted := s.noted ++ more } i id →
      Holds s i id ∨ ∃ tracked, s.tracked i = some tracked ∧ tracked.shared = c ∧ .minted id ∈ updates := by
    rintro i id ⟨tracked, hi, hlive | hwaits⟩
    · exact .inl ⟨tracked, hi, .inl hlive⟩
    · by_cases hshared : tracked.shared = c
      · have hmem : .minted id ∈ ((s.modifyShared c f).shareds c).routes := hshared ▸ hwaits
        rw [hown] at hmem
        rcases List.mem_append.mp hmem with hmem | hmem
        · exact .inl ⟨tracked, hi, .inr (hshared.symm ▸ hmem)⟩
        · exact .inr ⟨tracked, hi, hshared, hmem⟩
      · have hmem : .minted id ∈ ((s.modifyShared c f).shareds tracked.shared).routes := hwaits
        rw [hother _ hshared] at hmem
        exact .inl ⟨tracked, hi, .inr hmem⟩
  have hfresh : ∀ d, d ≠ c → updatesOf d (s.noted ++ more) = updatesOf d s.noted := by
    intro d hd
    rw [updatesOf_append, hmore, if_neg (Ne.symm hd), List.append_nil]
  refine ⟨h.routes, fun i tracked hi => ?_, fun i j id hi hj => ?_, h.fresh, fun d hd => ?_, fun d hd => ?_, h.ready, h.owned⟩
  · have hold := h.noted i tracked hi
    show updatesOf tracked.shared (s.noted ++ more) = reportedTo i s.reported ++ ((s.modifyShared c f).shareds tracked.shared).routes
    by_cases hshared : tracked.shared = c
    · rw [hshared] at hold ⊢
      rw [updatesOf_append, hold, hmore, if_pos rfl, hown, List.append_assoc]
    · rw [hfresh _ hshared, hother _ hshared]
      exact hold
  · rcases hholds i id hi with hi' | ⟨tracked, hi', hshared, hmem⟩
    · rcases hholds j id hj with hj' | ⟨tracked', hj', hshared', hmem⟩
      · exact h.apart i j id hi' hj'
      · obtain ⟨tracked, htracked⟩ := hi'.entry
        exact hsound.once i j tracked tracked' htracked hj' ((hnew i tracked id htracked hmem hi').trans hshared'.symm)
    · rcases hholds j id hj with hj' | ⟨tracked', hj', hshared', -⟩
      · obtain ⟨tracked', htracked'⟩ := hj'.entry
        exact hsound.once i j tracked tracked' hi' htracked' (hshared.trans (hnew j tracked' id htracked' hmem hj').symm)
      · exact hsound.once i j tracked tracked' hi' hj' (hshared.trans hshared'.symm)
  · have hne : d ≠ c := by
      rintro rfl
      exact hasked hd
    show updatesOf d (s.noted ++ more) = [] ∧ ((s.modifyShared c f).shareds d).routes = []
    rw [hfresh d hne, hother d hne]
    exact h.unasked d hd
  · have hne : d ≠ c := by
      rintro rfl
      exact absurd hc (not_lt.mpr hd)
    show updatesOf d (s.noted ++ more) = []
    rw [hfresh d hne]
    exact h.unnamed d hd

/-- The routes that lead elsewhere are as before. -/
def OthersKept (i : Option ℕ) (s s' : Core κ) : Prop := ∀ id j, i ≠ some j → ((id, j) ∈ s'.routes ↔ (id, j) ∈ s.routes)

theorem Routed.holds_of_waiting (h : Routed s) (hretires : RetiresOwn s.noted) (hi : s.tracked i = some tracked)
    (hmem : update ∈ (s.shareds tracked.shared).routes) : Holds s i (subjectOf update) := by
  cases update with
  | minted cid => exact ⟨tracked, hi, .inr hmem⟩
  | retired cid =>
    obtain ⟨before, after, hsplit⟩ := List.append_of_mem hmem
    have hnoted := h.noted i tracked hi
    rw [hsplit, ← List.append_assoc] at hnoted
    have hlive := hretires.live hnoted
    rw [isLive_append] at hlive
    refine ⟨tracked, hi, (live_or_minted before hlive).imp_right fun hbefore => ?_⟩
    rw [hsplit]
    exact List.mem_append_left _ hbefore

theorem Routed.report (h : Routed s) (hretires : RetiresOwn s.noted) (hi : s.tracked i = some tracked)
    (f : ConnectionShared → ConnectionShared) (updates : List RouteUpdate)
    (hf : (s.shareds tracked.shared).routes = updates ++ (f (s.shareds tracked.shared)).routes) (hsound : Sound s) :
    Routed ((s.modifyShared tracked.shared f).report i updates) ∧
      OthersKept (some i) s ((s.modifyShared tracked.shared f).report i updates) := by
  have hwaits : ∀ update ∈ updates, Holds s i (subjectOf update) :=
    fun update hmem => h.holds_of_waiting hretires hi (hf ▸ List.mem_append_left _ hmem)
  have hroutes : ∀ id j, (id, j) ∈ updates.foldl (World.applyRoute i) s.routes ↔
      if j = i then updates.foldl (liveAfter id) (decide ((id, i) ∈ s.routes)) = true else (id, j) ∈ s.routes := by
    refine fun id j => mem_applyRoutes_iff fun update hmem k hk => ?_
    obtain ⟨hsome, hlive⟩ := (h.routes _ k).mp hk
    obtain ⟨tracked', hk'⟩ := Option.isSome_iff_exists.mp hsome
    exact h.apart k i _ ⟨tracked', hk', .inl hlive⟩ (hwaits update hmem)
  have hother : ∀ d, d ≠ tracked.shared → ((s.modifyShared tracked.shared f).shareds d).routes = (s.shareds d).routes := by
    intro d hd
    simp [Core.modifyShared, hd]
  have hown : ((s.modifyShared tracked.shared f).shareds tracked.shared).routes = (f (s.shareds tracked.shared)).routes := by
    simp [Core.modifyShared]
  have hreported : ∀ j, reportedTo j (s.reported ++ updates.map fun update => (i, update)) =
      reportedTo j s.reported ++ if i = j then updates else [] := by
    intro j
    rw [reportedTo_append, reportedTo_map]
  have hholds : ∀ j id, Holds ((s.modifyShared tracked.shared f).report i updates) j id → Holds s j id := by
    rintro j id ⟨tracked', hj, hlive⟩
    refine ⟨tracked', hj, ?_⟩
    change isLive id (reportedTo j (s.reported ++ updates.map fun update => (i, update))) = true ∨
      .minted id ∈ ((s.modifyShared tracked.shared f).shareds tracked'.shared).routes at hlive
    rw [hreported] at hlive
    by_cases hj' : i = j
    · subst hj'
      obtain rfl : tracked = tracked' := Option.some.inj (hi.symm.trans hj)
      rw [if_pos rfl, isLive_append, hown] at hlive
      rw [hf, List.mem_append]
      rcases hlive with hlive | hmem
      · exact (live_or_minted updates hlive).imp_right .inl
      · exact .inr (.inr hmem)
    · have hne : tracked'.shared ≠ tracked.shared := fun heq => hj' (hsound.once i j tracked tracked' hi hj heq.symm)
      rwa [if_neg hj', List.append_nil, hother _ hne] at hlive
  refine ⟨⟨fun id j => ?_, fun j tracked' hj => ?_, fun j k id hj hk => ?_, fun j hj => ?_, fun d hd => ?_, h.unnamed,
    h.ready, h.owned⟩, fun id j hne => ?_⟩
  · show (id, j) ∈ updates.foldl (World.applyRoute i) s.routes ↔ (s.tracked j).isSome = true ∧
      isLive id (reportedTo j (s.reported ++ updates.map fun update => (i, update))) = true
    rw [hroutes, hreported]
    by_cases hj : j = i
    · subst hj
      have hlive : decide ((id, j) ∈ s.routes) = isLive id (reportedTo j s.reported) := by
        rw [Bool.eq_iff_iff, decide_eq_true_iff, h.routes, hi]
        simp
      rw [if_pos rfl, if_pos rfl, isLive_append, hlive, hi]
      simp
    · rw [if_neg hj, if_neg (Ne.symm hj), List.append_nil]
      exact h.routes id j
  · show updatesOf tracked'.shared s.noted = reportedTo j (s.reported ++ updates.map fun update => (i, update)) ++
      ((s.modifyShared tracked.shared f).shareds tracked'.shared).routes
    have hold := h.noted j tracked' hj
    rw [hreported]
    by_cases hj' : i = j
    · subst hj'
      obtain rfl : tracked = tracked' := Option.some.inj (hi.symm.trans hj)
      rw [if_pos rfl, hown, List.append_assoc, ← hf]
      exact hold
    · have hne : tracked'.shared ≠ tracked.shared := fun heq => hj' (hsound.once i j tracked tracked' hi hj heq.symm)
      rw [if_neg hj', List.append_nil, hother _ hne]
      exact hold
  · exact h.apart j k id (hholds j id hj) (hholds k id hk)
  · show reportedTo j (s.reported ++ updates.map fun update => (i, update)) = []
    have hne : i ≠ j := ((hsound.tracked i tracked hi).1.trans_le hj).ne
    rw [hreported, if_neg hne, List.append_nil]
    exact h.fresh j hj
  · have hne : d ≠ tracked.shared := by
      rintro rfl
      exact (hsound.tracked i tracked hi).2.2 hd
    show updatesOf d s.noted = [] ∧ ((s.modifyShared tracked.shared f).shareds d).routes = []
    rw [hother d hne]
    exact h.unasked d hd
  · have hj : j ≠ i := fun heq => hne (congrArg some heq.symm)
    show (id, j) ∈ updates.foldl (World.applyRoute i) s.routes ↔ (id, j) ∈ s.routes
    rw [hroutes, if_neg hj]

theorem Routed.remove (h : Routed s) (i : ℕ) : Routed (s.remove i) ∧ OthersKept (some i) s (s.remove i) := by
  have hroutes : ∀ id j, (id, j) ∈ (s.remove i).routes ↔ (id, j) ∈ s.routes ∧ j ≠ i := by
    intro id j
    simp [Core.remove]
  have htracked : ∀ j, j ≠ i → (s.remove i).tracked j = s.tracked j := by
    intro j hj
    simp [Core.remove, Core.setTracked, hj]
  have hnone : (s.remove i).tracked i = none := by
    simp [Core.remove, Core.setTracked]
  have hold : ∀ j tracked, (s.remove i).tracked j = some tracked → s.tracked j = some tracked := by
    intro j tracked hj
    by_cases hne : j = i
    · rw [hne, hnone] at hj
      cases hj
    · rwa [htracked j hne] at hj
  have hholds : ∀ j id, Holds (s.remove i) j id → Holds s j id := by
    rintro j id ⟨tracked, hj, hlive⟩
    exact ⟨tracked, hold j tracked hj, hlive⟩
  refine ⟨⟨fun id j => ?_, fun j tracked hj => h.noted j tracked (hold j tracked hj), fun j k id hj hk => ?_, h.fresh,
    h.unasked, h.unnamed, h.ready, h.owned⟩, fun id j hne => ?_⟩
  · rw [hroutes, h.routes]
    by_cases hj : j = i
    · simp [hj, hnone]
    · rw [htracked j hj]
      exact and_iff_left hj
  · exact h.apart j k id (hholds j id hj) (hholds k id hk)
  · have hj : j ≠ i := fun heq => hne (congrArg some heq.symm)
    rw [hroutes]
    exact and_iff_left hj

/-! ## Steps -/

theorem sameNames_shareds {shareds : ℕ → ConnectionShared} (hshareds : ∀ c, (shareds c).routes = (s.shareds c).routes) :
    SameNames s { s with shareds } :=
  ⟨fun _ => rfl, rfl, rfl, rfl, rfl, le_rfl, fun c _ => hshareds c, fun _ hc => .inl hc, fun _ hd => .inl hd, fun _ hc => .inl hc⟩

theorem sameNames_modifyShared {f : ConnectionShared → ConnectionShared} (hf : (f (s.shareds c)).routes = (s.shareds c).routes) :
    SameNames s (s.modifyShared c f) := by
  refine sameNames_shareds fun d => ?_
  by_cases hd : d = c
  · subst hd
    simpa using hf
  · simp [hd]

theorem sameNames_setTracked (hi : s.tracked i = some tracked) (hshared : tracked'.shared = tracked.shared) :
    SameNames s (s.setTracked i (some tracked')) := by
  refine ⟨fun j => ?_, rfl, rfl, rfl, rfl, le_rfl, fun _ _ => rfl, fun _ hc => .inl hc, fun _ hd => .inl hd, fun _ hc => .inl hc⟩
  by_cases hj : j = i
  · subst hj
    simp [Core.setTracked, hi, hshared]
  · simp [Core.setTracked, hj]

theorem sameNames_ask {shared : ConnectionShared} : SameNames s (s.ask shared) := by
  refine ⟨fun _ => rfl, rfl, rfl, rfl, rfl, Nat.le_succ _, fun c hc => ?_, fun _ hc => .inl hc, fun _ hd => .inl hd,
    fun _ hc => .inl hc⟩
  simp [Core.ask, Function.update_of_ne hc.ne]

theorem sameNames_dialled {dialing dials : List ℕ} (hsub : ∀ c ∈ dialing ++ dials, c ∈ s.dialing ++ s.dials) :
    SameNames s { s with dialing, dials } := by
  refine ⟨fun _ => rfl, rfl, rfl, rfl, rfl, le_rfl, fun _ _ => rfl, fun c hc => ?_, fun _ hd => .inl hd, fun _ hc => .inl hc⟩
  rcases List.mem_append.mp hc with hc | hc
  · exact .inl (List.mem_append_left _ (hsub c hc))
  · exact .inl (List.mem_append_right _ hc)

theorem OthersKept.trans {i : Option ℕ} {s'' : Core κ} (h : OthersKept i s s') (h' : OthersKept i s' s'') : OthersKept i s s'' :=
  fun id j hj => (h' id j hj).trans (h id j hj)

theorem othersKept_of_eq {i : Option ℕ} (h : s'.routes = s.routes) : OthersKept i s s' := by
  intro id j _
  rw [h]

theorem Routed.track (h : Routed s) (hnoted : updatesOf tracked.shared s.noted = [])
    (hroutes : (s.shareds tracked.shared).routes = []) (hnone : ∀ j tracked', s.tracked j = some tracked' → j ≠ s.nextIndex) :
    Routed (s.track tracked) := by
  have hreported : reportedTo s.nextIndex s.reported = [] := h.fresh _ le_rfl
  have hnext : s.tracked s.nextIndex = none := by
    cases heq : s.tracked s.nextIndex with
    | none => rfl
    | some tracked' => exact (hnone _ tracked' heq rfl).elim
  have hholds : ∀ j id, Holds (s.track tracked) j id → Holds s j id := by
    rintro j id ⟨tracked', hj, hlive⟩
    change isLive id (reportedTo j s.reported) = true ∨ .minted id ∈ (s.shareds tracked'.shared).routes at hlive
    rcases tracked_setTracked hj with ⟨rfl, heq⟩ | ⟨-, hj⟩
    · cases heq
      rw [hreported, isLive_nil, hroutes] at hlive
      rcases hlive with hlive | hlive
      all_goals cases hlive
    · exact ⟨tracked', hj, hlive⟩
  refine ⟨fun id j => ?_, fun j tracked' hj => ?_, fun j k id hj hk => ?_, fun j hj => ?_, h.unasked, h.unnamed, h.ready, h.owned⟩
  · by_cases hj : j = s.nextIndex
    · subst hj
      have hold := h.routes id s.nextIndex
      simpa [Core.track, Core.setTracked, hreported, hnext] using hold
    · simpa [Core.track, Core.setTracked, hj] using h.routes id j
  · show updatesOf tracked'.shared s.noted = reportedTo j s.reported ++ (s.shareds tracked'.shared).routes
    rcases tracked_setTracked hj with ⟨rfl, heq⟩ | ⟨-, hj⟩
    · cases heq
      rw [hreported, hroutes]
      exact hnoted
    · exact h.noted j tracked' hj
  · exact h.apart j k id (hholds j id hj) (hholds k id hk)
  · exact h.fresh j ((Nat.le_succ _).trans hj)

variable [Transport κ]

theorem Routed.install (hsound : Sound s) (h : Routed s) (hc : c < s.created) (hasked : c ∉ s.asked)
    (hnoted : updatesOf c s.noted = []) (hroutes : (s.shareds c).routes = [])
    (huntracked : ∀ i tracked, s.tracked i = some tracked → tracked.shared ≠ c) (conn : κ) (remote : Address)
    (hdistinct : Distinct (s.install conn c remote).noted) (hretires : RetiresOwn (s.install conn c remote).noted) :
    Routed (s.install conn c remote) ∧ OthersKept (some s.nextIndex) s (s.install conn c remote) := by
  -- The entry comes first, then what it has to report, and then the report.
  let tracked : Tracked κ := { conn := some conn, shared := c, remote }
  have hentry : Sound (s.track tracked) := hsound.track hc hasked huntracked
  have htracked : Routed (s.track tracked) := h.track hnoted hroutes fun j tracked hj => (hsound.tracked j tracked hj).1.ne
  have hwaiting := htracked.note hentry (c := c) (fun shared => { shared with routes := World.initialRoutes conn })
    (World.initialRoutes conn) ((World.initialRoutes conn).map fun update => (c, .noted update))
    hc hasked (by simp [Core.track, Core.setTracked, hroutes]) (fun d => updatesOf_noted d c _)
    fun j tracked id hj hmem hholds => htracked.minted_apart hdistinct hmem hj hholds
  have hnext : (s.track tracked).tracked s.nextIndex = some tracked := by
    simp [Core.track, Core.setTracked]
  have hreport := hwaiting.report hretires hnext (fun shared => { shared with routes := [] }) (World.initialRoutes conn) (by simp [tracked, Core.modifyShared])
    ⟨hentry.tracked, hentry.once, hentry.nodup, hentry.below, hentry.routed⟩
  obtain ⟨hrouted, hothers⟩ := hreport
  have hinstalled : Sound (s.install conn c remote) := hsound.install hc hasked huntracked conn remote
  refine ⟨Routed.of_same ?_ hrouted ?_, fun id j hj => hothers id j hj⟩
  · exact ⟨hinstalled.tracked, hinstalled.once, hinstalled.nodup, hinstalled.below, hinstalled.routed⟩
  · refine ⟨fun _ => rfl, rfl, rfl, rfl, rfl, le_rfl, fun d _ => ?_, fun _ hd => .inl hd, fun _ hd => .inl hd, fun _ hd => .inl hd⟩
    by_cases hd : d = c
    · subst hd
      simpa [Core.install, Core.report, Core.recordRoutes, Core.modifyShared, Core.track, Core.setTracked, tracked] using hroutes
    · simp [Core.install, Core.report, Core.recordRoutes, Core.modifyShared, Core.track, Core.setTracked, tracked, hd]

omit [Transport κ] in
theorem Routed.choose (hsound : Sound s) (h : Routed s) (hi : s.tracked i = some tracked) (id : Bytes)
    (hnone : ∀ j, j ≠ i → ¬Holds s j id) (hwaiting : (s.shareds tracked.shared).routes = [])
    (hretires : RetiresOwn (s.recordChosen tracked.shared id).noted) :
    Routed ((s.recordChosen tracked.shared id).report i [.minted id]) ∧
      OthersKept (some i) s ((s.recordChosen tracked.shared id).report i [.minted id]) := by
  obtain ⟨-, hc, hasked⟩ := hsound.tracked i tracked hi
  have hwaits := h.note hsound (c := tracked.shared) (fun shared => { shared with routes := [.minted id] })
    [.minted id] [(tracked.shared, .chosen id)] hc hasked (by simp [hwaiting])
    (fun d => updatesOf_chosen d tracked.shared id) fun j tracked' cid hj hmem hholds => ?_
  · obtain ⟨hrouted, hothers⟩ := hwaits.report hretires hi (fun shared => { shared with routes := [] }) [.minted id] (by simp [Core.modifyShared])
      ⟨hsound.tracked, hsound.once, hsound.nodup, hsound.below, hsound.routed⟩
    have hreported : Sound (s.report i [.minted id]) := hsound.report (by simp [hi]) _
    refine ⟨Routed.of_same ?_ hrouted ?_, fun id j hj => hothers id j hj⟩
    · exact ⟨hreported.tracked, hreported.once, hreported.nodup, hreported.below, hreported.routed⟩
    · refine ⟨fun _ => rfl, rfl, rfl, rfl, rfl, le_rfl, fun d _ => ?_, fun _ hd => .inl hd, fun _ hd => .inl hd, fun _ hd => .inl hd⟩
      by_cases hd : d = tracked.shared
      · subst hd
        simpa [Core.report, Core.recordChosen, Core.modifyShared] using hwaiting
      · simp [Core.report, Core.recordChosen, Core.modifyShared, hd]
  · obtain rfl : cid = id := by simpa using hmem
    by_cases hne : j = i
    · subst hne
      rw [Option.some.inj (hj.symm.trans hi)]
    · exact (hnone j hne hholds).elim

theorem holds_of_accepted (hsound : Sound s) {shared : ConnectionShared} (conn : κ) (remote : Address) (hj : j ≠ s.nextIndex)
    (h : Holds ((s.ask shared).install conn s.created remote) j id) : Holds s j id := by
  obtain ⟨tracked, hj', hlive⟩ := h
  have hold : s.tracked j = some tracked := by
    simpa [Core.install, Core.report, Core.recordRoutes, Core.track, Core.setTracked, Core.ask, hj] using hj'
  have hne : tracked.shared ≠ s.created := (hsound.tracked j tracked hold).2.1.ne
  refine ⟨tracked, hold, ?_⟩
  simpa [Core.install, Core.report, Core.recordRoutes, Core.track, Core.setTracked, Core.ask, reportedTo_map, Ne.symm hj, hne]
    using hlive

/-! ## What steps keep -/

/-- No entry has an identifier. -/
def Unclaimed (s : Core κ) (id : Bytes) : Prop := ∀ j, ¬Holds s j id

/-- Only the routes of the subject change, and clients choose identifiers that no entry has. -/
def telling (subject : Option ℕ) : May κ where
  chosen s id := subject = some s.nextIndex ∧ Unclaimed s id
  dialled s _ := subject = some s.nextIndex
  removed _ i := subject = some i
  routed _ i := subject = some i

omit [Transport κ] in
theorem note_routes (shared : ConnectionShared) (notes : List Note) :
    (notes.foldl .note shared).routes = shared.routes ++ notes.filterMap Note.routing := by
  induction notes generalizing shared with
  | nil => simp
  | cons note notes ih =>
    rw [List.foldl_cons, ih]
    cases note with
    | observe event => rfl
    | observeRoute update => simp [ConnectionShared.note, Note.routing]

theorem noted_step {may : May κ} (hstep : Step may s s') : s.noted <+: s'.noted := by
  cases hstep with
  | call => exact List.prefix_append _ _
  | dial => exact List.prefix_append _ _
  | accept => exact (List.prefix_append _ _).trans (List.prefix_append _ _)
  | _ => exact List.prefix_rfl

theorem routed_step {subject : Option ℕ} (hsound : Sound s) (h : Routed s) (hdistinct : Distinct s'.noted)
    (hretires : RetiresOwn s'.noted) (hstep : Step (telling subject) s s') : Routed s' ∧ OthersKept subject s s' := by
  cases hstep with
  | share c hf => exact ⟨h.of_same hsound (sameNames_modifyShared hf.routes), othersKept_of_eq rfl⟩
  | @call i tracked conn htracked hconn _ call =>
    have hset : Routed (s.setTracked i (some { tracked with conn := some (Transport.call call conn).2.2 })) :=
      h.of_same hsound (sameNames_setTracked htracked rfl)
    have hsetSound : Sound (s.setTracked i (some { tracked with conn := some (Transport.call call conn).2.2 })) :=
      hsound.setTracked htracked rfl
    obtain ⟨-, hc, hasked⟩ := hsound.tracked i tracked htracked
    refine ⟨hset.note hsetSound (fun shared => (Transport.call call conn).2.1.foldl .note shared) _ _ hc hasked (note_routes _ _) (fun d => updatesOf_noted d tracked.shared _) ?_, othersKept_of_eq rfl⟩
    exact fun j tracked' id hj hmem hholds => hset.minted_apart hdistinct hmem hj hholds
  | pend htracked pending => exact ⟨h.of_same hsound (sameNames_setTracked htracked rfl), othersKept_of_eq rfl⟩
  | @finish i tracked htracked error =>
    have hset : Routed (s.setTracked i (some { tracked with finished := true })) :=
      h.of_same hsound (sameNames_setTracked htracked rfl)
    have hsetSound : Sound (s.setTracked i (some { tracked with finished := true })) := hsound.setTracked htracked rfl
    exact ⟨hset.of_same hsetSound (sameNames_modifyShared rfl), othersKept_of_eq rfl⟩
  | fail htracked hover error => exact ⟨h.of_same hsound (sameNames_modifyShared rfl), othersKept_of_eq rfl⟩
  | failSilently hsilent error => exact ⟨h.of_same hsound (sameNames_modifyShared rfl), othersKept_of_eq rfl⟩
  | establish htracked => exact ⟨h.of_same hsound (sameNames_modifyShared rfl), othersKept_of_eq rfl⟩
  | @handOver i tracked conn htracked hconn hdetach hestablished hmay =>
    have hsame : SameNames s (s.setTracked i (some { tracked with conn := none })) := sameNames_setTracked htracked rfl
    refine ⟨h.of_same hsound { hsame with ready := fun d hd => ?_ }, othersKept_of_eq rfl⟩
    rcases List.mem_append.mp hd with hd | hd
    · exact .inl hd
    · obtain rfl := List.mem_singleton.mp hd
      exact .inr ⟨i, tracked, htracked, rfl⟩
  | ask hfresh => exact ⟨h.of_same hsound sameNames_ask, othersKept_of_eq rfl⟩
  | @dial c dialing hdialing conn remote hmay =>
    obtain rfl : subject = some s.nextIndex := hmay
    have hmem : c ∈ s.asked := by simp [Core.asked, hdialing]
    have hcons : c :: (dialing ++ s.dials ++ s.connecting) = s.asked := by simp [Core.asked, hdialing]
    have hnodup := hsound.nodup
    rw [← hcons, List.nodup_cons] at hnodup
    have hdialled : Routed { s with dialing } := h.of_same hsound (sameNames_dialled (by simp +contextual [hdialing]))
    have hdialledSound : Sound { s with dialing } := hsound.dialled (by simp [hdialing])
    obtain ⟨hnoted, hroutes⟩ := h.unasked c hmem
    exact hdialled.install hdialledSound (hsound.below c hmem) hnodup.1 hnoted hroutes
      (fun i tracked hi heq => (hsound.tracked i tracked hi).2.2 (heq ▸ hmem)) conn remote hdistinct hretires
  | @undial c dialing hdialing error =>
    have hdialled : Routed { s with dialing } := h.of_same hsound (sameNames_dialled (by simp +contextual [hdialing]))
    have hdialledSound : Sound { s with dialing } := hsound.dialled (by simp [hdialing])
    exact ⟨hdialled.of_same hdialledSound (sameNames_modifyShared rfl), othersKept_of_eq rfl⟩
  | @accept shared hfresh conn remote id hmay =>
    obtain ⟨rfl, hunclaimed⟩ := hmay
    have hasked : Routed (s.ask shared) := h.of_same hsound sameNames_ask
    have haskedSound : Sound (s.ask shared) := hsound.ask shared
    have hnot : s.created ∉ s.asked := fun hc => Nat.lt_irrefl _ (hsound.below _ hc)
    have huntracked : ∀ i tracked, s.tracked i = some tracked → tracked.shared ≠ s.created :=
      fun i tracked hi => (hsound.tracked i tracked hi).2.1.ne
    have hstart : ((s.ask shared).install conn s.created remote).noted <+:
        (((s.ask shared).install conn s.created remote).recordChosen s.created id).noted := List.prefix_append _ _
    obtain ⟨hinstalled, hothers⟩ := hasked.install haskedSound (Nat.lt_succ_self _) hnot (h.unnamed _ le_rfl)
      (by simpa [Core.ask] using hfresh.routes) huntracked conn remote (hdistinct.of_earlier hstart) (hretires.of_earlier hstart)
    have hinstalledSound := haskedSound.install (Nat.lt_succ_self _) hnot huntracked conn remote
    have hnext : ((s.ask shared).install conn s.created remote).tracked s.nextIndex =
        some { conn := some conn, shared := s.created, remote } := by
      simp [Core.install, Core.report, Core.recordRoutes, Core.track, Core.setTracked, Core.ask]
    obtain ⟨hchosen, hothers'⟩ := hinstalled.choose hinstalledSound hnext id
      (fun j hj hholds => hunclaimed j (holds_of_accepted hsound conn remote hj hholds))
      (by simpa [Core.install, Core.report, Core.recordRoutes, Core.track, Core.setTracked, Core.ask] using hfresh.routes) hretires
    exact ⟨hchosen, hothers.trans hothers'⟩
  | @applyRoutes i tracked htracked hmay =>
    obtain rfl : subject = some i := hmay
    exact h.report hretires htracked _ _ (by simp) hsound
  | remove i hmay =>
    obtain rfl : subject = some i := hmay
    exact h.remove i
  | drain hmay => exact ⟨h.of_same hsound (sameNames_dialled (by simp +contextual)), othersKept_of_eq rfl⟩
  | failDials error =>
    have hdialled : Routed { s with dials := [] } := h.of_same hsound (sameNames_dialled (by simp +contextual))
    have hdialledSound : Sound { s with dials := [] } := hsound.dialled (by simp)
    refine ⟨hdialled.of_same hdialledSound (sameNames_shareds fun c => ?_), othersKept_of_eq rfl⟩
    split
    all_goals rfl
  | markGone =>
    exact ⟨h.of_same hsound ⟨fun _ => rfl, rfl, rfl, rfl, rfl, le_rfl, fun _ _ => rfl, fun _ hc => .inl hc, fun _ hd => .inl hd,
      fun _ hc => .inl hc⟩, othersKept_of_eq rfl⟩
  | complete hmay sent =>
    exact ⟨h.of_same hsound ⟨fun _ => rfl, rfl, rfl, rfl, rfl, le_rfl, fun _ _ => rfl, fun _ hc => .inl hc, fun _ hd => .inl hd,
      fun _ hc => .inl hc⟩, othersKept_of_eq rfl⟩
  | advance hmay progress =>
    exact ⟨h.of_same hsound ⟨fun _ => rfl, rfl, rfl, rfl, rfl, le_rfl, fun _ _ => rfl, fun _ hc => .inl hc, fun _ hd => .inl hd,
      fun _ hc => .inl hc⟩, othersKept_of_eq rfl⟩

theorem routed_steps {subject : Option ℕ} (hsteps : Relation.ReflTransGen (Step (telling subject)) s s') (hsound : Sound s)
    (h : Routed s) (hdistinct : Distinct s'.noted) (hretires : RetiresOwn s'.noted) :
    Sound s' ∧ Routed s' ∧ OthersKept subject s s' := by
  induction hsteps with
  | refl => exact ⟨hsound, h, othersKept_of_eq rfl⟩
  | tail _ hstep ih =>
    have hstart := noted_step hstep
    obtain ⟨hsound', hrouted', hothers⟩ := ih (hdistinct.of_earlier hstart) (hretires.of_earlier hstart)
    obtain ⟨hrouted'', hothers'⟩ := routed_step hsound' hrouted' hdistinct hretires hstep
    exact ⟨hsound'.step hstep, hrouted'', hothers.trans hothers'⟩

omit [Transport κ] in
theorem sameNames_act {action : Action} (hnote : ∀ c notes, action ≠ .note c notes) : SameNames (core w) (core (w.act action)) := by
  have hact : HandleStep (fun _ => True) w (w.act action) := handleStep_act action fun _ _ => True.intro
  have hmute : Mute w (w.act action) := mute_act hnote
  obtain ⟨more, hasked, -, hmore⟩ := hact.asked
  rw [← asked_core, ← asked_core] at hasked
  refine ⟨fun i => ?_, ?_, hmute.noted, hmute.reported, ?_, hact.created, hmute.shareds, fun c hc => ?_,
    fun d hd => .inl (hmute.ready d hd), hmute.owned⟩
  · simp only [core, hact.driver]
  · simp only [core, hact.driver]
  · simp only [core, hact.driver]
  · rcases List.mem_append.mp (hasked.mem_iff.mp hc) with hc | hc
    · exact .inl hc
    · obtain ⟨hle, hlt, -⟩ := hmore c hc
      exact .inr ⟨hle, hmute.fresh c hle hlt⟩

omit [Transport κ] in
theorem routed_act (action : Action) (hsound : Sound (core w)) (h : Routed (core w))
    (hdistinct : Distinct (w.act action).history.noted) : Routed (core (w.act action)) := by
  by_cases hnote : ∀ c notes, action ≠ .note c notes
  · exact h.of_same hsound (sameNames_act hnote)
  push Not at hnote
  obtain ⟨c, notes, rfl⟩ := hnote
  rw [World.act, World.note] at hdistinct ⊢
  split
  · rename_i howned
    rw [if_pos howned] at hdistinct
    obtain ⟨hc, hasked⟩ := h.owned c howned
    exact h.note hsound (fun shared => notes.foldl .note shared) _ _ hc hasked (note_routes _ notes) (fun d => updatesOf_noted d c _)
      fun j tracked id hj hmem hholds => h.minted_apart hdistinct hmem hj hholds
  · exact h

/-! ## Operations -/

section Runs
variable [Socket σ] [Platform π κ]

/-- The connection that an operation is about, by its index. -/
def subject {β : Type} (op : Op κ β) (w : World κ σ π) : Option ℕ :=
  match op with
  | .applyRoutes index | .remove index => some index
  | .dial | .begin _ _ => some w.driver.nextIndex
  | _ => none

/-- A connection is accepted for an identifier that another has minted, and that waits to be routed. -/
def takesWaiting {β : Type} (op : Op κ β) (w : World κ σ π) : Bool :=
  match chosenBy op w with
  | some id => w.driver.connections.toList.any fun (_, tracked) => (w.shareds tracked.shared).routes.contains (.minted id)
  | none => false

def LeavesWaiting {β : Type} (op : Op κ β) (w : World κ σ π) : Prop := takesWaiting op w = false

instance {β : Type} (op : Op κ β) (w : World κ σ π) : Decidable (LeavesWaiting op w) := inferInstanceAs (Decidable (_ = false))

/-- The identifier of an accepted connection was routed nowhere. -/
def Unrouted {β : Type} (op : Op κ β) (w : World κ σ π) : Prop :=
  ∀ id, chosenBy op w = some id → ∀ j, (id, j) ∉ w.driver.routes

variable {β : Type}

omit [Transport κ] [Socket σ] in
theorem unclaimed_of_unrouted {op : Op κ β} (h : Routed (core w)) (hleaves : LeavesWaiting op w)
    (hunrouted : Unrouted op w) (hid : chosenBy op w = some id) : Unclaimed (core w) id := by
  rintro j ⟨tracked, hj, hlive | hwaits⟩
  · refine hunrouted id hid j ((h.routes id j).mpr ⟨?_, hlive⟩)
    rw [hj]
    rfl
  · rw [LeavesWaiting, takesWaiting, hid] at hleaves
    have hnone := List.any_eq_false.mp hleaves (j, tracked) (Std.TreeMap.mem_toList_iff_getElem?_eq_some.mpr hj)
    exact hnone (List.contains_iff_mem.mpr hwaits)

omit [Socket σ] in
theorem permits_telling {op : Op κ β} (h : Routed (core w)) (hleaves : LeavesWaiting op w)
    (hunrouted : Unrouted op w) : Permits (telling (subject op w)) op w := by
  have hall := permits_all op w
  refine { hall with
    chosen := fun id hid => ⟨?_, unclaimed_of_unrouted h hleaves hunrouted hid⟩
    dialled := fun c hc => ?_
    removed := fun i hi => ?_
    routed := fun i hi => ?_ }
  · cases op
    case begin => rfl
    all_goals cases hid
  · show subject op w = some w.driver.nextIndex
    cases op
    case dial => rfl
    all_goals cases hc
  · show subject op w = some i
    cases op
    case remove => exact hi
    all_goals cases hi
  · show subject op w = some i
    cases op
    case applyRoutes => exact hi
    all_goals cases hi

theorem routed_applyOp (op : Op κ β) (hsound : Sound (core w)) (h : Routed (core w)) (hleaves : LeavesWaiting op w)
    (hunrouted : Unrouted op w) (hdistinct : Distinct (w.applyOp op).2.history.noted)
    (hretires : RetiresOwn (w.applyOp op).2.history.noted) :
    Routed (core (w.applyOp op).2) ∧ OthersKept (subject op w) (core w) (core (w.applyOp op).2) :=
  (routed_steps (takes_applyOp op (permits_telling h hleaves hunrouted)) hsound h hdistinct hretires).2

theorem noted_applyOp (op : Op κ β) : w.history.noted <+: (w.applyOp op).2.history.noted := by
  have htakes : Takes {} w (w.applyOp op).2 := takes_applyOp op (permits_all op w)
  refine htakes.invariant (I := fun s => (core w).noted <+: s.noted) (fun hstart hstep => ?_) List.prefix_rfl
  exact hstart.trans (noted_step hstep)

omit [Transport κ] [Socket σ] [Platform π κ] in
theorem noted_act (action : Action) : w.history.noted <+: (w.act action).history.noted := by
  by_cases hnote : ∀ c notes, action ≠ .note c notes
  · have hmute : Mute w (w.act action) := mute_act hnote
    exact hmute.noted ▸ List.prefix_rfl
  push Not at hnote
  obtain ⟨c, notes, rfl⟩ := hnote
  rw [World.act, World.note]
  split
  · exact List.prefix_append _ _
  · exact List.prefix_rfl

/-! ## Strangers -/

omit [Transport κ] [Socket σ] in
theorem dcid_of_chosen {packet : InitialPacket} {source : Address} (h : chosen w packet source = some id) : packet.dcid = id := by
  rw [chosen] at h
  split at h
  · split at h
    · exact Option.some.inj h
    · cases h
  · cases h

/-- What a first packet is addressed to is what its datagram is addressed to. -/
def DecodesAlike (π κ : Type) [Platform π κ] : Prop := ∀ (platform : π) datagram packet,
  Platform.inspectInitial (κ := κ) platform datagram = some packet → Platform.inspect (κ := κ) platform datagram = some packet.dcid

/-- The connection that an identifier leads to, by its index. -/
def lookup (w : World κ σ π) (id : Bytes) : Option ℕ := (w.driver.routes.find? (·.1 = id)).map (·.2)

/-- The datagram that was just found to belong to no connection. -/
def nextStray : {β : Type} → Op κ β → β → Option Bytes
  | _, .route datagram, none => some datagram
  | _, _, _ => none

def allowsStray : {β : Type} → Option Bytes → Op κ β → Prop
  | _, stray, .begin datagram _ => stray = some datagram
  | _, _, _ => True

/-- A connection is begun for a datagram only that belongs to none. -/
def strays : Protocol (Op κ) (Option Bytes) where
  next _ := nextStray
  allows := allowsStray
  expects _ _ := True

omit [Transport κ] in
theorem plain_strays (op : Op κ β) (h : Routine op) : Plain (strays (κ := κ)) (fun _ => True) op := by
  intro k _
  cases op
  all_goals first
    | exact h.elim
    | exact ⟨True.intro, fun _ => True.intro⟩

omit [Transport κ] in
theorem keeps_strays (config : Config) (fuel n : ℕ) :
    Keeps (strays (κ := κ)) (fun _ => True) (fun _ => True) (run config fuel n : DriverM κ Unit) := by
  refine keeps_run plain_strays ?_ ?_ ?_ ?_ (fun index => ?_) ?_ ?_ config ?_ fuel n
  · exact fun _ _ => ⟨True.intro, fun _ _ => ⟨True.intro, fun _ _ => True.intro⟩⟩
  · exact fun _ _ => ⟨True.intro, fun _ => True.intro⟩
  · refine keeps_dials ?_ ?_
    all_goals exact fun _ _ => ⟨True.intro, fun _ => True.intro⟩
  · exact fun _ _ => ⟨True.intro, fun _ => True.intro⟩
  · refine keeps_applyCommands ?_ ?_
    all_goals exact fun _ _ => ⟨True.intro, fun _ => True.intro⟩
  · refine keeps_evict ?_ (fun index => ?_) fun index => ?_
    all_goals exact fun _ _ => ⟨True.intro, fun _ => True.intro⟩
  · exact fun _ _ => ⟨True.intro, fun _ => True.intro⟩
  · intro datagram source k _
    rw [dispatch]
    refine ⟨True.intro, fun routed _ => ?_⟩
    cases routed with
    | some index => exact keeps_deliver plain_strays index datagram _ True.intro
    | none =>
      show Follows _ _ _ (if !config.accepts then _ else _) _
      split
      · exact True.intro
      split
      · exact True.intro
      refine ⟨rfl, fun begun _ => ?_⟩
      cases begun with
      | some index =>
        refine keeps_bind (keeps_deliver plain_strays index datagram) (fun _ => ?_) _ True.intro
        exact keeps_routine plain_strays True.intro
      | none => exact True.intro

/-- What is known of the datagram that belongs to no connection. -/
def Stray (w : World κ σ π) (stray : Option Bytes) : Prop :=
  ∀ datagram ∈ stray, (Platform.inspect (κ := κ) w.driver.platform datagram).bind (lookup w) = none

theorem stray_applyOp (op : Op κ β) : Stray (w.applyOp op).2 (nextStray op (w.applyOp op).1) := by
  intro datagram hdatagram
  cases op
  case route d =>
    generalize hanswer : (w.applyOp (.route d)).1 = answer at hdatagram
    cases answer with
    | some index => cases hdatagram
    | none =>
      obtain rfl : d = datagram := Option.some.inj hdatagram
      exact hanswer
  all_goals cases hdatagram

omit [Transport κ] [Socket σ] in
theorem unrouted_of_stray {op : Op κ β} {stray : Option Bytes} (hdecodes : DecodesAlike π κ) (h : Stray w stray)
    (hallowed : allowsStray stray op) : Unrouted op w := by
  intro id hid j hroute
  cases op
  case begin datagram source =>
    obtain rfl : stray = some datagram := hallowed
    obtain ⟨packet, hpacket, hchosen⟩ := Option.bind_eq_some_iff.mp (show Option.bind _ _ = some id from hid)
    have hdcid : packet.dcid = id := dcid_of_chosen hchosen
    have hnone := h datagram rfl
    rw [hdecodes _ _ _ hpacket, Option.bind_some, lookup, hdcid, Option.map_eq_none_iff, List.find?_eq_none] at hnone
    exact hnone (id, j) hroute (decide_eq_true rfl)
  all_goals cases hid

/-! ## Runs -/

variable {config : QuicEndpointDriver.Config} {fuel : ℕ} {socket : σ} {platform : π} {detachable : Bool}
  {choices : List (Choice Action)} {good : {β : Type} → Op κ β → World κ σ π → Prop} {fair : Action → World κ σ π → Prop}

theorem careful_unrouted (hdecodes : DecodesAlike π κ)
    (h : (endpoint (κ := κ) config fuel).Careful (built socket platform detachable) good fair choices) :
    (endpoint (κ := κ) config fuel).Careful (built socket platform detachable) (fun op w => good op w ∧ Unrouted op w) fair
      choices := by
  have D : Conduct (endpoint (κ := κ) (σ := σ) (π := π) config fuel) strays (fun _ => True) fun _ => True := by
    refine ⟨fun k _ => ?_, fun _ _ _ _ => True.intro⟩
    exact ⟨True.intro, fun _ _ => ⟨True.intro, fun _ _ => ⟨True.intro, fun _ _ => True.intro⟩⟩⟩
  have hfollows := careful_follows (k := none) (E := fun _ _ => True) Stray D nofun
    (Follows.mono (keeps_strays config fuel fuel none True.intro) (fun _ _ h => h) fun _ _ _ => ⟨True.intro, True.intro⟩)
    (fun op w k _ _ _ => ⟨True.intro, stray_applyOp op⟩) (fun action w k hstray _ => ?_) h
  · refine hfollows.mono ?_ fun _ _ h => h
    rintro β op w ⟨hgood, k, hstray, hallowed⟩
    exact ⟨hgood, unrouted_of_stray hdecodes hstray hallowed⟩
  · have hact : HandleStep (fun _ => True) w (w.act action) := handleStep_act action fun _ _ => True.intro
    have hlookup : lookup (w.act action) = lookup w := by
      funext id
      rw [lookup, lookup, hact.driver]
    intro datagram hdatagram
    show (Platform.inspect (κ := κ) (w.act action).driver.platform datagram).bind (lookup (w.act action)) = none
    rw [hlookup, hact.driver]
    exact hstray datagram hdatagram

theorem careful_distinct {c : InterleavedPrograms.Config (Op κ) Error Unit (World κ σ π)}
    (hreached : (endpoint (κ := κ) config fuel).reached (built socket platform detachable) choices = c)
    (hdistinct : Distinct c.state.history.noted) (hretires : RetiresOwn c.state.history.noted) :
    (endpoint (κ := κ) config fuel).Careful (built socket platform detachable)
      (fun op w => Distinct (w.applyOp op).2.history.noted ∧ RetiresOwn (w.applyOp op).2.history.noted)
      (fun action w => Distinct (w.act action).history.noted) choices := by
  subst hreached
  refine (careful_states (I := fun w => Distinct w.history.noted ∧ RetiresOwn w.history.noted) ?_).mono
    (fun op w h => h.2) fun action w h => h.2.1
  rintro before after rfl
  have hany : (endpoint (κ := κ) config fuel).Careful (built socket platform detachable) (fun _ _ => True) (fun _ _ => True)
    (before ++ after) := careful_of_forall (fun _ _ => True.intro) fun _ _ => True.intro
  have hstart := related_reached (r := fun w w' => w.history.noted <+: w'.history.noted)
    (fun _ => List.prefix_rfl) (fun _ _ _ => List.IsPrefix.trans) (fun op w _ => noted_applyOp op)
    (fun action w _ => noted_act action) before after hany
  exact ⟨hdistinct.of_earlier hstart, hretires.of_earlier hstart⟩

omit [Transport κ] [Socket σ] [Platform π κ] in
theorem lookup_iff (h : Routed (core w)) : lookup w id = some i ↔ (id, i) ∈ w.driver.routes := by
  have hholds : ∀ j, (id, j) ∈ w.driver.routes → Holds (core w) j id := by
    intro j hj
    obtain ⟨hsome, hlive⟩ := (h.routes id j).mp hj
    obtain ⟨tracked, htracked⟩ := Option.isSome_iff_exists.mp hsome
    exact ⟨tracked, htracked, .inl hlive⟩
  have hfound : ∀ route, w.driver.routes.find? (·.1 = id) = some route → route.1 = id ∧ (id, route.2) ∈ w.driver.routes := by
    intro route hroute
    have hid : route.1 = id := by simpa using List.find?_some hroute
    exact ⟨hid, hid ▸ List.mem_of_find?_eq_some hroute⟩
  constructor
  · intro hlookup
    obtain ⟨route, hroute, rfl⟩ := Option.map_eq_some_iff.mp hlookup
    exact (hfound route hroute).2
  · intro hmem
    cases hfind : w.driver.routes.find? (·.1 = id) with
    | none => exact (List.find?_eq_none.mp hfind (id, i) hmem (decide_eq_true rfl)).elim
    | some route =>
      rw [lookup, hfind, Option.map_some, h.apart _ _ id (hholds _ (hfound route hfind).2) (hholds _ hmem)]

/-- Every route leads to a connection that is tracked, and each identifier that is in use of a connection leads to it,
as far as the table was told. -/
structure Integral (w : World κ σ π) : Prop where
  lead : RoutesLead w
  reported : ∀ i tracked id, w.driver.connections[i]? = some tracked →
    isLive id (reportedTo i w.history.reported) = true → lookup w id = some i
  below : ∀ i tracked, w.driver.connections[i]? = some tracked → i < w.driver.nextIndex

/-- An operation on one connection leaves the routes of the others alone. -/
def OthersKeep {β : Type} (op : Op κ β) (w : World κ σ π) : Prop :=
  ∀ id j, subject op w ≠ some j → (lookup (w.applyOp op).2 id = some j ↔ lookup w id = some j)

/-- An index that was given out is not given out again. -/
def NotReused (w w' : World κ σ π) : Prop := ∀ i tracked', w'.driver.connections[i]? = some tracked' → i < w.driver.nextIndex →
  ∃ tracked, w.driver.connections[i]? = some tracked ∧ tracked.shared = tracked'.shared

omit [Transport κ] [Socket σ] [Platform π κ] in
theorem routed_built : Routed (core (built socket platform detachable : World κ σ π)) := by
  constructor
  all_goals simp [core, built, Core.asked, Holds, updatesOf, reportedTo]

theorem notReused_reached (before after : List (Choice Action)) :
    NotReused ((endpoint (κ := κ) config fuel).reached (built socket platform detachable) before).state
      ((endpoint (κ := κ) config fuel).reached (built socket platform detachable) (before ++ after)).state := by
  have hany : (endpoint (κ := κ) config fuel).Careful (built socket platform detachable) (fun _ _ => True) (fun _ _ => True)
    (before ++ after) := careful_of_forall (fun _ _ => True.intro) fun _ _ => True.intro
  have hgrows := related_reached (r := fun w w' => Grows (fun _ => True) (core w) (core w'))
    (fun _ => grows_of_eq rfl rfl rfl) (fun _ _ _ => Grows.trans) (fun op w _ => (grows_applyOp op).mono fun _ _ => True.intro)
    (fun action w _ => grows_act action) before after hany
  intro i tracked' hi hlt
  rcases hgrows.entries i tracked' hi with hold | ⟨hle, -⟩
  · exact hold
  · exact absurd hlt hle.not_gt

/-- What is known of the routes in every state. -/
def Known (w : World κ σ π) : Prop := Sound (core w) ∧ Routed (core w)

theorem careful_routed (hdecodes : DecodesAlike π κ) (hgood : ∀ {β : Type} (op : Op κ β) w, good op w → LeavesWaiting op w)
    (h : (endpoint (κ := κ) config fuel).Careful (built socket platform detachable) good fair choices)
    (hdistinct : Distinct ((endpoint (κ := κ) config fuel).reached (built socket platform detachable) choices).state.history.noted)
    (hretires : RetiresOwn ((endpoint (κ := κ) config fuel).reached (built socket platform detachable) choices).state.history.noted) :
    (endpoint (κ := κ) config fuel).Careful (built socket platform detachable)
      (fun op w => good op w ∧ Known w ∧ Known (w.applyOp op).2 ∧ OthersKept (subject op w) (core w) (core (w.applyOp op).2)) fair
      choices ∧ Known ((endpoint (κ := κ) config fuel).reached (built socket platform detachable) choices).state := by
  have hsteps := (careful_unrouted hdecodes h).and (careful_distinct rfl hdistinct hretires)
  have hinit : Known (built socket platform detachable : World κ σ π) := ⟨sound_built socket platform detachable, routed_built⟩
  have hown : ∀ {β : Type} (op : Op κ β) (w : World κ σ π), Known w →
      (good op w ∧ Unrouted op w) ∧ Distinct (w.applyOp op).2.history.noted ∧ RetiresOwn (w.applyOp op).2.history.noted →
      Known (w.applyOp op).2 ∧ OthersKept (subject op w) (core w) (core (w.applyOp op).2) := by
    intro β op w hknown hstep
    have hrouted := routed_applyOp op hknown.1 hknown.2 (hgood op w hstep.1.1) hstep.1.2 hstep.2.1 hstep.2.2
    exact ⟨⟨sound_applyOp op hknown.1, hrouted.1⟩, hrouted.2⟩
  have hother : ∀ action (w : World κ σ π), Known w → fair action w ∧ Distinct (w.act action).history.noted → Known (w.act action) :=
    fun action w hknown hstep => ⟨sound_act action hknown.1, routed_act action hknown.1 hknown.2 hstep.2⟩
  refine ⟨?_, state_invariant hinit (fun op w hknown hstep => (hown op w hknown hstep).1) hother hsteps⟩
  have hcareful := careful_invariant hinit (fun op w hknown hstep => (hown op w hknown hstep).1) hother hsteps
  refine hcareful.mono (fun op w hstep => ?_) fun action w hstep => hstep.1.1
  have hbehind := hown op w hstep.2 hstep.1
  exact ⟨hstep.1.1.1, hstep.2, hbehind.1, hbehind.2⟩

/-- In every run in which minted identifiers do not collide and no connection is accepted for an identifier that
another is about to have, each identifier leads to the connection it was reported for, whatever becomes of the others. -/
theorem integral_reached (hdecodes : DecodesAlike π κ)
    (h : (endpoint (κ := κ) config fuel).Careful (built socket platform detachable) LeavesWaiting (fun _ _ => True) choices)
    (hdistinct : Distinct ((endpoint (κ := κ) config fuel).reached (built socket platform detachable) choices).state.history.noted)
    (hretires : RetiresOwn ((endpoint (κ := κ) config fuel).reached (built socket platform detachable) choices).state.history.noted) :
    Integral ((endpoint (κ := κ) config fuel).reached (built socket platform detachable) choices).state ∧
      (endpoint (κ := κ) config fuel).Careful (built socket platform detachable) OthersKeep
        (fun action w => lookup (w.act action) = lookup w) choices ∧
      ∀ before after, choices = before ++ after →
        NotReused ((endpoint (κ := κ) config fuel).reached (built socket platform detachable) before).state
          ((endpoint (κ := κ) config fuel).reached (built socket platform detachable) choices).state := by
  obtain ⟨hcareful, hsound, hrouted⟩ := careful_routed hdecodes (fun _ _ h => h) h hdistinct hretires
  refine ⟨?_, ?_, ?_⟩
  · refine ⟨hsound.routed, fun i tracked id hi hlive => (lookup_iff hrouted).mpr ?_, fun i tracked hi => (hsound.tracked i tracked hi).1⟩
    exact (hrouted.routes id i).mpr ⟨Option.isSome_iff_exists.mpr ⟨tracked, hi⟩, hlive⟩
  · refine hcareful.mono (fun op w hstep => ?_) fun action w _ => ?_
    · obtain ⟨-, hknown, hknown', hothers⟩ := hstep
      intro id j hj
      rw [lookup_iff hknown'.2, lookup_iff hknown.2]
      exact hothers id j hj
    · have hact : HandleStep (fun _ => True) w (w.act action) := handleStep_act action fun _ _ => True.intro
      funext id
      rw [lookup, lookup, hact.driver]
  · rintro before after rfl
    exact notReused_reached before after

end Runs

/-! ## A client that chooses an identifier of another connection -/

def addressedTo (id : UInt8) : Bytes := 0 :: id :: List.replicate 19 0

/-- A connection has minted an identifier in the datagram that it sends; a first packet for an identifier arrives
behind that. -/
def contender (id : UInt8) : ScriptedWorld :=
  built { arriving := [(addressedTo 7, 0), (addressedTo id, 1)] }
    { conns := [{ scids := [[1]], writes := [(.ok (.datagram 1), [3], [.observeRoute (.minted [9])])] }, { scids := [[2]] }] }
    false

def accepting : System (Op ScriptedConn) Error Unit ScriptedWorld Action :=
  scripted { datagramsPerPass := 1, accepts := true }

def contended (id : UInt8) (n : ℕ) : InterleavedPrograms.Config (Op ScriptedConn) Error Unit ScriptedWorld :=
  accepting.reached (contender id) (List.replicate n .own)

theorem decodesAlike_scripted : DecodesAlike ScriptedPlatform ScriptedConn := by
  intro platform datagram packet h
  have hpacket : initialPacket datagram = some packet := h
  show ((initialPacket datagram).map (·.dcid) <|> datagram.head?.map fun id => [id]) = some packet.dcid
  rw [hpacket]
  rfl

/-- A client that chooses the identifier that was minted has it until the table is told whose it is. -/
theorem stolen : DecodesAlike ScriptedPlatform ScriptedConn ∧ Distinct (contended 9 29).state.history.noted ∧
    RetiresOwn (contended 9 29).state.history.noted ∧ ¬Integral (contended 9 29).state := by
  refine ⟨decodesAlike_scripted, by decide +kernel, by decide +kernel, fun h => ?_⟩
  have htracked : ((contended 9 29).state.driver.connections[1]?).isSome = true := by decide +kernel
  have hlive : isLive [9] (reportedTo 1 (contended 9 29).state.history.reported) = true := by decide +kernel
  have hlookup : lookup (contended 9 29).state [9] = some 0 := by decide +kernel
  obtain ⟨tracked, hi⟩ := Option.isSome_iff_exists.mp htracked
  rw [h.reported 1 tracked [9] hi hlive] at hlookup
  cases hlookup

/-- One that chooses another keeps it. -/
theorem integral_reached_chosen : Integral (contended 8 29).state ∧
    accepting.Careful (contender 8) OthersKeep (fun action w => lookup (w.act action) = lookup w) (List.replicate 29 .own) ∧
    ∀ before after, List.replicate 29 .own = before ++ after →
      NotReused (accepting.reached (contender 8) before).state (contended 8 29).state := by
  refine integral_reached decodesAlike_scripted ?_ ?_ ?_
  · apply careful_of_carefulFrom
    decide +kernel
  · decide +kernel
  · decide +kernel

end Ngnet.QuicRouting
