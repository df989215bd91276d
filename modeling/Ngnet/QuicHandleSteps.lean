import Ngnet.QuicEndpointHandles

/-!
# What handles and owners change

An action of a handle or of an owner leaves the driver as it is. In what a connection shares with it, it may
take observations and datagrams that arrived, queue commands and routing changes behind those that wait, and
say that the owner is done; only an owner queues datagrams.
-/

namespace Ngnet.QuicEndpoint
open QmuxVarints

variable {κ σ π : Type} {w w' w'' : World κ σ π} {may : ℕ → Prop} {c : ℕ}

/-- What may happen to what is shared; datagrams are queued only where they may be. -/
structure Handled (may : Prop) (s s' : ConnectionShared) : Prop where
  closed : s'.closed = s.closed
  established : s'.established = s.established
  detach : s'.detach = s.detach
  detachToAcceptor : s'.detachToAcceptor = s.detachToAcceptor
  commands : s.commands <+: s'.commands
  routes : s.routes <+: s'.routes
  terminal : s.terminal = true → s'.terminal = true
  queue : may ∨ s'.outbound = s.outbound ∧ s'.closeOutbound = s.closeOutbound

theorem Handled.refl (may : Prop) (s : ConnectionShared) : Handled may s s :=
  ⟨rfl, rfl, rfl, rfl, List.prefix_rfl, List.prefix_rfl, id, .inr ⟨rfl, rfl⟩⟩

theorem Handled.trans {may : Prop} {s s' s'' : ConnectionShared} (h : Handled may s s') (h' : Handled may s' s'') :
    Handled may s s'' where
  closed := h'.closed.trans h.closed
  established := h'.established.trans h.established
  detach := h'.detach.trans h.detach
  detachToAcceptor := h'.detachToAcceptor.trans h.detachToAcceptor
  commands := h.commands.trans h'.commands
  routes := h.routes.trans h'.routes
  terminal := h'.terminal ∘ h.terminal
  queue := by
    rcases h.queue with hmay | ⟨houtbound, hclose⟩
    · exact .inl hmay
    · exact h'.queue.imp_right fun ⟨houtbound', hclose'⟩ => ⟨houtbound'.trans houtbound, hclose'.trans hclose⟩

/-- The connections that were asked for and not dialled yet, from the first that will be. -/
def World.asked (w : World κ σ π) : List ℕ := (w.driver.dialing ++ w.endpoint.dials ++ w.connecting).map (·.shared)

theorem perm_eraseP {α : Type} {p : α → Bool} {entries : List α} {a : α} (h : entries.find? p = some a) :
    (a :: entries.eraseP p).Perm entries := by
  obtain ⟨ha, before, after, rfl, hbefore⟩ := List.find?_eq_some_iff_append.mp h
  have herase : (a :: after).eraseP p = after := List.eraseP_cons_of_pos ha
  rw [List.eraseP_append_right _ (by simpa using hbefore), herase]
  exact List.perm_middle.symm

theorem asked_pushDial (c : ℕ) (w : World κ σ π) : (w.pushDial c).asked.Perm w.asked := by
  rw [World.pushDial]
  split
  · exact .refl _
  · rename_i dial hfind
    have hperm : (dial :: w.connecting.eraseP (·.shared = c)).Perm w.connecting := perm_eraseP hfind
    simp only [World.asked, List.append_assoc]
    refine List.Perm.map _ (List.Perm.append_left _ (List.Perm.append_left _ ?_))
    exact hperm

structure HandleStep (may : ℕ → Prop) (w w' : World κ σ π) : Prop where
  driver : w'.driver = w.driver
  created : w.created ≤ w'.created
  shareds : ∀ c < w.created, Handled (may c) (w.shareds c) (w'.shareds c)
  asked : ∃ more, w'.asked.Perm (w.asked ++ more) ∧ more.Nodup ∧ ∀ c ∈ more, w.created ≤ c ∧ c < w'.created ∧
    (w'.shareds c).closed = false
  dialled : ∀ c ∈ w'.history.dialled, c ∈ w.history.dialled ∨
    c < w'.created ∧ (c ∈ w'.asked ∨ (w'.shareds c).closed = true)
  progress : w'.history.progress = w.history.progress

theorem HandleStep.refl (may : ℕ → Prop) (w : World κ σ π) : HandleStep may w w :=
  ⟨rfl, le_rfl, fun _ _ => .refl _ _, ⟨[], .of_eq (List.append_nil _).symm, List.nodup_nil, nofun⟩, fun _ hc => .inl hc, rfl⟩

theorem HandleStep.trans (h : HandleStep may w w') (h' : HandleStep may w' w'') : HandleStep may w w'' where
  driver := h'.driver.trans h.driver
  created := h.created.trans h'.created
  shareds c hc := (h.shareds c hc).trans (h'.shareds c (hc.trans_le h.created))
  asked := by
    obtain ⟨more, hasked, hnodup, hmore⟩ := h.asked
    obtain ⟨more', hasked', hnodup', hmore'⟩ := h'.asked
    refine ⟨more ++ more', ?_, ?_, fun c hc => ?_⟩
    · exact hasked'.trans (List.append_assoc .. ▸ hasked.append_right more')
    · refine List.nodup_append.mpr ⟨hnodup, hnodup', fun c hc c' hc' => ?_⟩
      have hbelow := (hmore c hc).2.1
      have habove := (hmore' c' hc').1
      omega
    · rcases List.mem_append.mp hc with hc | hc
      · obtain ⟨hle, hlt, hopen⟩ := hmore c hc
        exact ⟨hle, hlt.trans_le h'.created, (h'.shareds c hlt).closed.trans hopen⟩
      · obtain ⟨hle, hlt, hopen⟩ := hmore' c hc
        exact ⟨h.created.trans hle, hlt, hopen⟩
  dialled c hc := by
    obtain ⟨more, hasked, -⟩ := h'.asked
    rcases h'.dialled c hc with hc | hc
    · refine (h.dialled c hc).imp_right fun ⟨hlt, hc⟩ => ⟨hlt.trans_le h'.created, hc.imp (fun hc => ?_) fun hclosed => ?_⟩
      · exact hasked.mem_iff.mpr (List.mem_append_left _ hc)
      · exact (h'.shareds c hlt).closed.trans hclosed
    · exact .inr hc
  progress := h'.progress.trans h.progress

theorem handleStep_of_eq (hdriver : w'.driver = w.driver) (hcreated : w'.created = w.created)
    (hshareds : w'.shareds = w.shareds) (hasked : w'.asked.Perm w.asked) (hdialled : w'.history.dialled = w.history.dialled)
    (hprogress : w'.history.progress = w.history.progress) : HandleStep may w w' :=
  ⟨hdriver, hcreated.ge, fun _ _ => hshareds ▸ .refl _ _,
    ⟨[], (List.append_nil w.asked).symm ▸ hasked, List.nodup_nil, nofun⟩, fun _ hc => .inl (hdialled ▸ hc), hprogress⟩

variable {f : ConnectionShared → ConnectionShared}

theorem handleStep_modifyShared (hf : ∀ s, Handled (may c) s (f s)) :
    HandleStep may w (w.modifyShared c f) := by
  refine ⟨rfl, le_rfl, fun d _ => ?_, ⟨[], .of_eq (List.append_nil _).symm, List.nodup_nil, nofun⟩, fun _ hc => .inl hc, rfl⟩
  by_cases hd : d = c
  · subst hd
    simpa [World.modifyShared] using hf (w.shareds d)
  · simpa [World.modifyShared, Function.update_of_ne hd] using Handled.refl _ _

theorem handleStep_setHandle (handle : Option Handle) : HandleStep may w (w.setHandle c handle) :=
  handleStep_of_eq rfl rfl rfl (.refl _) rfl rfl

theorem handled_push (may : Prop) (s : ConnectionShared) (command : Command) : Handled may s (s.push command) :=
  ⟨rfl, rfl, rfl, rfl, List.prefix_append _ _, List.prefix_rfl, id, .inr ⟨rfl, rfl⟩⟩

theorem handled_observed (may : Prop) (s : ConnectionShared) (observed : List Observed) :
    Handled may s { s with observed } :=
  ⟨rfl, rfl, rfl, rfl, List.prefix_rfl, List.prefix_rfl, id, .inr ⟨rfl, rfl⟩⟩

theorem handled_inbound (may : Prop) (s : ConnectionShared) (inbound : List Bytes) :
    Handled may s { s with inbound } :=
  ⟨rfl, rfl, rfl, rfl, List.prefix_rfl, List.prefix_rfl, id, .inr ⟨rfl, rfl⟩⟩

theorem handled_markTerminal (may : Prop) (s : ConnectionShared) : Handled may s s.markTerminal :=
  ⟨rfl, rfl, rfl, rfl, List.prefix_rfl, List.prefix_rfl, fun _ => rfl, .inr ⟨rfl, rfl⟩⟩

theorem handled_notes (may : Prop) (s : ConnectionShared) (notes : List Note) : Handled may s (notes.foldl .note s) := by
  induction notes generalizing s with
  | nil => exact .refl _ _
  | cons note notes ih =>
    refine Handled.trans ?_ (ih (s.note note))
    cases note with
    | observe event => exact handled_observed may s _
    | observeRoute update =>
      exact ⟨rfl, rfl, rfl, rfl, List.prefix_rfl, List.prefix_append _ _, id, .inr ⟨rfl, rfl⟩⟩

theorem handleStep_command (command : Command) : HandleStep may w (w.command c command) := by
  rw [World.command]
  split
  · exact handleStep_modifyShared fun s => handled_push _ s command
  · exact .refl _ _

theorem handleStep_commandIfOpen (command : Command) : HandleStep may w (w.commandIfOpen c command) := by
  rw [World.commandIfOpen]
  split
  · exact .refl _ _
  · exact handleStep_command command

theorem handleStep_connect (remote : Address) (serverName : Option String) (detach : Bool) :
    HandleStep may w (w.connect remote serverName detach) := by
  rw [World.connect]
  dsimp only
  split
  · refine ⟨rfl, Nat.le_succ _, fun c hc => ?_, ⟨[], .of_eq (List.append_nil _).symm, List.nodup_nil, nofun⟩, fun c hc => ?_, rfl⟩
    · simpa [World.modifyShared, World.ask, World.onHistory, Function.update_of_ne hc.ne] using Handled.refl _ _
    · rcases List.mem_cons.mp hc with rfl | hc
      · exact .inr ⟨Nat.lt_succ_self _, .inr (by simp [World.modifyShared, ConnectionShared.fail])⟩
      · exact .inl hc
  · refine ⟨rfl, Nat.le_succ _, fun c hc => ?_, ⟨[w.created], ?_, ?_, fun c hc => ?_⟩, fun c hc => ?_, rfl⟩
    · simpa [World.ask, World.onHistory, Function.update_of_ne hc.ne] using Handled.refl _ _
    · exact .of_eq (by simp [World.asked, World.ask, World.onHistory])
    · exact List.nodup_cons.mpr ⟨List.not_mem_nil, List.nodup_nil⟩
    · obtain rfl := List.mem_singleton.mp hc
      exact ⟨le_rfl, Nat.lt_succ_self _, by simp [World.ask, World.onHistory]⟩
    · rcases List.mem_cons.mp hc with rfl | hc
      · exact .inr ⟨Nat.lt_succ_self _, .inl (by simp [World.asked, World.ask, World.onHistory])⟩
      · exact .inl hc

theorem handleStep_absorb (handle : Handle) : HandleStep may w (w.absorb c handle).2 :=
  handleStep_modifyShared fun s => handled_observed _ s []

theorem handleStep_write (write : Write) : HandleStep may w (w.write c write) := by
  rw [World.write]
  split
  · exact .refl _ _
  rename_i handle _
  split
  · exact .refl _ _
  have habsorb : HandleStep may w (w.absorb c handle).2 := handleStep_absorb handle
  dsimp only
  split
  · exact habsorb.trans (handleStep_setHandle _)
  · exact habsorb.trans (handleStep_setHandle _)

theorem handleStep_pushWrite : HandleStep may w (w.pushWrite c) := by
  rw [World.pushWrite]
  split
  · exact .refl _ _
  split
  · exact .refl _ _
  rename_i write _
  have hpush : HandleStep may w (w.modifyShared c (·.push (.write write.stream write.data write.fin))) :=
    handleStep_modifyShared fun s => handled_push _ s _
  exact hpush.trans (handleStep_of_eq rfl rfl rfl (.refl _) rfl rfl)

theorem handleStep_read (stream : QmuxStreams.StreamId) : HandleStep may w (w.read c stream) := by
  rw [World.read]
  split
  · exact .refl _ _
  rename_i handle _
  have habsorb : HandleStep may w (w.absorb c handle).2 := handleStep_absorb handle
  dsimp only
  split
  · exact habsorb.trans (handleStep_setHandle _)
  rename_i slot _
  split
  · exact habsorb.trans (handleStep_setHandle _)
  · have hcredit : HandleStep may (w.absorb c handle).2 ((w.absorb c handle).2.modifyShared c
        (·.push (.extendCredit stream slot.bytes.length))) := handleStep_modifyShared fun s => handled_push _ s _
    exact (habsorb.trans hcredit).trans (handleStep_setHandle _)

theorem handleStep_acceptStream : HandleStep may w (w.acceptStream c) := by
  rw [World.acceptStream]
  split
  · exact .refl _ _
  rename_i handle _
  exact (handleStep_absorb handle).trans (handleStep_setHandle _)

theorem handleStep_takeReady : HandleStep may w (w.act .takeReady) := by
  rw [World.act]
  generalize World.takeReady w.shareds w.endpoint.accepted.length w.endpoint.accepted = result
  obtain ⟨found, accepted⟩ := result
  have haccepted : HandleStep may w { w with endpoint := { w.endpoint with accepted } } := handleStep_of_eq rfl rfl rfl (.refl _) rfl rfl
  cases found with
  | some c => exact haccepted.trans (handleStep_setHandle _)
  | none => exact haccepted

theorem handleStep_collect (key : Option ℕ) : HandleStep may w (w.collect key) := by
  rw [World.collect]
  split
  · split
    · exact .refl _ _
    · exact handleStep_of_eq rfl rfl rfl (.refl _) rfl rfl
  · exact .refl _ _

theorem handleStep_giveUp : HandleStep may w (w.giveUp c) := by
  rw [World.giveUp]
  split
  · exact handleStep_of_eq rfl rfl rfl (.refl _) rfl rfl
  · exact .refl _ _

theorem handleStep_abandon : HandleStep may w (w.abandon c) := by
  rw [World.abandon]
  split
  · dsimp only
    split
    · exact handleStep_of_eq rfl rfl rfl (.refl _) rfl rfl
    · rename_i d _
      have hterminal : HandleStep may w (w.modifyShared d.shared (·.markTerminal)) :=
        handleStep_modifyShared fun s => handled_markTerminal _ s
      exact hterminal.trans (handleStep_of_eq rfl rfl rfl (.refl _) rfl rfl)
  · exact .refl _ _

theorem handleStep_markAbandoned : HandleStep may w (w.markAbandoned c) := by
  rw [World.markAbandoned]
  split
  · have hterminal : HandleStep may w (w.modifyShared c (·.markTerminal)) :=
      handleStep_modifyShared fun s => handled_markTerminal _ s
    exact hterminal.trans (handleStep_of_eq rfl rfl rfl (.refl _) rfl rfl)
  · exact .refl _ _

theorem handleStep_own (hf : ∀ s, Handled (may c) s (f s)) :
    HandleStep may w (w.own c f) := by
  rw [World.own]
  split
  · exact handleStep_modifyShared hf
  · exact .refl _ _

theorem handleStep_note (notes : List Note) : HandleStep may w (w.note c notes) := by
  rw [World.note]
  split
  · have hnote : HandleStep may w (w.modifyShared c fun s => notes.foldl .note s) :=
      handleStep_modifyShared fun s => handled_notes _ s notes
    exact hnote.trans (handleStep_of_eq rfl rfl rfl (.refl _) rfl rfl)
  · exact .refl _ _

theorem handled_queue {may : Prop} (hmay : may) {s : ConnectionShared} (outbound : List Bytes) (closeOutbound : Option Bytes) :
    Handled may s { s with outbound, closeOutbound } :=
  ⟨rfl, rfl, rfl, rfl, List.prefix_rfl, List.prefix_rfl, id, .inl hmay⟩

theorem handleStep_send (d : Bytes) (hmay : c ∈ w.owned → may c) : HandleStep may w (w.send c d) := by
  rw [World.send]
  split
  · rename_i hsend
    have howned : c ∈ w.owned := by simpa using (Bool.and_eq_true_iff.mp hsend).1
    have hqueue : HandleStep may w (w.modifyShared c (·.queueOutbound d)) := by
      refine handleStep_modifyShared fun s => ?_
      rw [ConnectionShared.queueOutbound]
      split
      · exact handled_queue (hmay howned) _ _
      · exact .refl _ _
    exact hqueue.trans (handleStep_of_eq rfl rfl rfl (.refl _) rfl rfl)
  · exact .refl _ _

theorem handleStep_sendClose (d : Bytes) (hmay : c ∈ w.owned → may c) : HandleStep may w (w.sendClose c d) := by
  rw [World.sendClose]
  split
  · rename_i hsend
    have howned : c ∈ w.owned := by simpa using (Bool.and_eq_true_iff.mp hsend).1
    have hqueue : HandleStep may w (w.modifyShared c (·.queueCloseOutbound d)) := by
      refine handleStep_modifyShared fun s => ?_
      rw [ConnectionShared.queueCloseOutbound]
      split
      · exact .refl _ _
      · exact handled_queue (hmay howned) _ _
    exact hqueue.trans (handleStep_of_eq rfl rfl rfl (.refl _) rfl rfl)
  · exact .refl _ _

/-- The owner of a detached connection queues something for the endpoint to send. -/
def queues (w : World κ σ π) : Action → Option ℕ
  | .send c _ | .sendClose c _ => if c ∈ w.owned then some c else none
  | _ => none

theorem handleStep_act (action : Action) (hmay : ∀ c, queues w action = some c → may c) :
    HandleStep may w (w.act action) := by
  cases action with
  | connect remote serverName detach => exact handleStep_connect remote serverName detach
  | pushDial c =>
    have hasked := asked_pushDial c w
    rw [World.act]
    rw [World.pushDial] at hasked ⊢
    split
    · exact .refl _ _
    · rename_i hfind
      rw [hfind] at hasked
      exact handleStep_of_eq rfl rfl rfl hasked rfl rfl
  | acceptDetached => exact handleStep_of_eq rfl rfl rfl (.refl _) rfl rfl
  | connected c =>
    rw [World.act]
    split
    · exact handleStep_setHandle _
    · exact .refl _ _
  | takeReady => exact handleStep_takeReady
  | openStream c bidi => exact handleStep_command _
  | takeOpened c directionality => exact handleStep_modifyShared fun s => handled_observed _ s _
  | write c write => exact handleStep_write write
  | pushWrite c => exact handleStep_pushWrite
  | read c stream => exact handleStep_read stream
  | acceptStream c => exact handleStep_acceptStream
  | resetStream c stream code => exact handleStep_commandIfOpen _
  | stopSending c stream code => exact handleStep_commandIfOpen _
  | close c code reason => exact handleStep_command _
  | dropHandle c => exact (handleStep_commandIfOpen _).trans (handleStep_setHandle _)
  | collect key => exact handleStep_collect key
  | giveUp c => exact handleStep_giveUp
  | abandon c => exact handleStep_abandon
  | markAbandoned c => exact handleStep_markAbandoned
  | takeInbound c => exact handleStep_own fun s => handled_inbound _ s _
  | takeObserved c => exact handleStep_own fun s => handled_observed _ s []
  | note c notes => exact handleStep_note notes
  | send c datagram => exact handleStep_send datagram fun howned => hmay c (if_pos howned)
  | sendClose c datagram => exact handleStep_sendClose datagram fun howned => hmay c (if_pos howned)
  | release c => exact handleStep_own fun s => handled_markTerminal _ s
  | dropDetached c => exact handleStep_of_eq rfl rfl rfl (.refl _) rfl rfl

/-! ## What an action says of identifiers -/

/-- An action that notes nothing. -/
structure Mute (w w' : World κ σ π) : Prop where
  noted : w'.history.noted = w.history.noted
  reported : w'.history.reported = w.history.reported
  shareds : ∀ c < w.created, (w'.shareds c).routes = (w.shareds c).routes
  ready : ∀ d ∈ w'.ready, d ∈ w.ready
  owned : ∀ c ∈ w'.owned, c ∈ w.owned ∨ ∃ d ∈ w.ready, d.shared = c
  fresh : ∀ c, w.created ≤ c → c < w'.created → (w'.shareds c).routes = []

theorem mute_refl (w : World κ σ π) : Mute w w := ⟨rfl, rfl, fun _ _ => rfl, fun _ hd => hd, fun _ hc => .inl hc, fun _ hle hlt => absurd hlt hle.not_gt⟩

theorem mute_modifyShared (hf : ∀ s, (f s).routes = s.routes)
    (hshareds : w'.shareds = (w.modifyShared c f).shareds) (hnoted : w'.history.noted = w.history.noted)
    (hreported : w'.history.reported = w.history.reported) (hready : w'.ready = w.ready) (howned : w'.owned = w.owned)
    (hcreated : w'.created = w.created) : Mute w w' := by
  refine ⟨hnoted, hreported, fun d _ => ?_, fun _ hd => hready ▸ hd, fun _ hc => .inl (howned ▸ hc),
    fun _ hle hlt => absurd (hcreated ▸ hlt) hle.not_gt⟩
  rw [hshareds]
  by_cases hd : d = c
  · subst hd
    simpa [World.modifyShared] using hf _
  · simp [World.modifyShared, hd]

theorem mute_of_eq (hshareds : w'.shareds = w.shareds) (hnoted : w'.history.noted = w.history.noted)
    (hreported : w'.history.reported = w.history.reported) (hready : w'.ready = w.ready) (howned : w'.owned = w.owned)
    (hcreated : w'.created = w.created) : Mute w w' :=
  ⟨hnoted, hreported, fun _ _ => by rw [hshareds], fun _ hd => hready ▸ hd, fun _ hc => .inl (howned ▸ hc),
    fun _ hle hlt => absurd (hcreated ▸ hlt) hle.not_gt⟩

theorem mute_command (command : Command) : Mute w (w.command c command) := by
  rw [World.command]
  split
  · exact mute_modifyShared (f := (·.push command)) (fun _ => rfl) rfl rfl rfl rfl rfl rfl
  · exact mute_refl w

theorem mute_commandIfOpen (command : Command) : Mute w (w.commandIfOpen c command) := by
  rw [World.commandIfOpen]
  split
  · exact mute_refl w
  · exact mute_command command

theorem mute_own (hf : ∀ s, (f s).routes = s.routes) : Mute w (w.own c f) := by
  rw [World.own]
  split
  · exact mute_modifyShared hf rfl rfl rfl rfl rfl rfl
  · exact mute_refl w

theorem mute_observed (handle : Handle) : Mute w (w.absorb c handle).2 :=
  mute_modifyShared (f := ({ · with observed := [] })) (fun _ => rfl) rfl rfl rfl rfl rfl rfl

theorem Mute.setHandle (h : Mute w w') (c : ℕ) (handle : Option Handle) : Mute w (w'.setHandle c handle) :=
  ⟨h.noted, h.reported, h.shareds, h.ready, h.owned, h.fresh⟩

theorem routes_queueOutbound (shared : ConnectionShared) (datagram : Bytes) :
    (shared.queueOutbound datagram).routes = shared.routes := by
  rw [ConnectionShared.queueOutbound]
  split
  all_goals rfl

theorem routes_queueCloseOutbound (shared : ConnectionShared) (datagram : Bytes) :
    (shared.queueCloseOutbound datagram).routes = shared.routes := by
  rw [ConnectionShared.queueCloseOutbound]
  split
  all_goals rfl

theorem mute_write (write : Write) : Mute w (w.write c write) := by
  rw [World.write]
  split
  · exact mute_refl w
  split
  · exact mute_refl w
  dsimp only
  split
  all_goals exact (mute_observed _).setHandle _ _

theorem mute_pushWrite : Mute w (w.pushWrite c) := by
  rw [World.pushWrite]
  split
  · exact mute_refl w
  split
  · exact mute_refl w
  · exact mute_modifyShared (f := fun s => s.push _) (fun _ => rfl) rfl rfl rfl rfl rfl rfl

theorem mute_read (stream : QmuxStreams.StreamId) : Mute w (w.read c stream) := by
  rw [World.read]
  split
  · exact mute_refl w
  rename_i handle _
  dsimp only
  split
  · exact (mute_observed _).setHandle _ _
  rename_i slot _
  split
  · exact (mute_observed _).setHandle _ _
  · have hcredit : Mute w ((w.absorb c handle).2.modifyShared c (·.push (.extendCredit stream slot.bytes.length))) := by
      refine mute_modifyShared (c := c) (f := fun s => { s with observed := [] }.push (.extendCredit stream slot.bytes.length))
        (fun _ => rfl) ?_ rfl rfl rfl rfl rfl
      simp [World.absorb, World.modifyShared]
    exact hcredit.setHandle _ _

theorem mute_collect (key : Option ℕ) : Mute w (w.collect key) := by
  rw [World.collect]
  split
  · split
    · exact mute_refl w
    · rename_i d hfind
      refine ⟨rfl, rfl, fun _ _ => rfl, fun _ hd => List.mem_of_mem_eraseP hd, fun c hc => ?_,
        fun _ hle hlt => absurd hlt hle.not_gt⟩
      rcases List.mem_cons.mp hc with rfl | hc
      · exact .inr ⟨d, List.mem_of_find?_eq_some hfind, rfl⟩
      · exact .inl hc
  · exact mute_refl w

theorem mute_abandon : Mute w (w.abandon c) := by
  rw [World.abandon]
  split
  · dsimp only
    split
    · exact mute_of_eq rfl rfl rfl rfl rfl rfl
    · rename_i d _
      have hmarked : Mute w (w.modifyShared d.shared (·.markTerminal)) :=
        mute_modifyShared (f := (·.markTerminal)) (fun _ => rfl) rfl rfl rfl rfl rfl rfl
      exact ⟨rfl, rfl, hmarked.shareds, fun _ hd => List.mem_of_mem_eraseP hd, fun _ hc => .inl hc, hmarked.fresh⟩
  · exact mute_refl w

theorem mute_act {action : Action} (hnote : ∀ c notes, action ≠ .note c notes) : Mute w (w.act action) := by
  cases action with
  | note c notes => exact (hnote c notes rfl).elim
  | connect remote serverName detach =>
    rw [World.act, World.connect]
    dsimp only
    split
    all_goals
      refine ⟨rfl, rfl, fun c hc => ?_, fun _ hd => hd, fun _ hc => .inl hc, fun c hle hlt => ?_⟩
      · simp [World.modifyShared, World.onHistory, World.ask, Function.update_of_ne hc.ne]
      · obtain rfl : c = w.created := Nat.le_antisymm (Nat.lt_succ_iff.mp hlt) hle
        simp [World.modifyShared, World.onHistory, World.ask, ConnectionShared.fail]
  | pushDial c =>
    rw [World.act, World.pushDial]
    split
    all_goals exact mute_of_eq rfl rfl rfl rfl rfl rfl
  | acceptDetached => exact mute_of_eq rfl rfl rfl rfl rfl rfl
  | connected c =>
    rw [World.act]
    split
    all_goals exact mute_of_eq rfl rfl rfl rfl rfl rfl
  | takeReady =>
    rw [World.act]
    dsimp only
    split
    all_goals exact mute_of_eq rfl rfl rfl rfl rfl rfl
  | openStream c bidi => exact mute_command _
  | takeOpened c directionality =>
    exact mute_modifyShared (f := fun s => { s with observed := s.observed.eraseP _ }) (fun _ => rfl) rfl rfl rfl rfl rfl rfl
  | write c write => exact mute_write write
  | pushWrite c => exact mute_pushWrite
  | read c stream => exact mute_read stream
  | acceptStream c =>
    rw [World.act, World.acceptStream]
    split
    · exact mute_refl w
    · rename_i handle _
      exact (mute_observed handle).setHandle _ _
  | resetStream c stream code => exact mute_commandIfOpen _
  | stopSending c stream code => exact mute_commandIfOpen _
  | close c code reason => exact mute_command _
  | dropHandle c => exact (mute_commandIfOpen _).setHandle _ _
  | collect key => exact mute_collect key
  | giveUp c =>
    rw [World.act, World.giveUp]
    split
    all_goals exact mute_of_eq rfl rfl rfl rfl rfl rfl
  | abandon c => exact mute_abandon
  | markAbandoned c =>
    rw [World.act, World.markAbandoned]
    split
    · exact mute_modifyShared (f := (·.markTerminal)) (fun _ => rfl) rfl rfl rfl rfl rfl rfl
    · exact mute_refl w
  | takeInbound c => exact mute_own fun _ => rfl
  | takeObserved c => exact mute_own fun _ => rfl
  | send c datagram =>
    rw [World.act, World.send]
    split
    · exact mute_modifyShared (f := (·.queueOutbound datagram)) (routes_queueOutbound · datagram) rfl rfl rfl rfl rfl rfl
    · exact mute_refl w
  | sendClose c datagram =>
    rw [World.act, World.sendClose]
    split
    · exact mute_modifyShared (f := (·.queueCloseOutbound datagram)) (routes_queueCloseOutbound · datagram) rfl rfl rfl rfl rfl rfl
    · exact mute_refl w
  | release c => exact mute_own fun _ => rfl
  | dropDetached c => exact ⟨rfl, rfl, fun _ _ => rfl, fun _ hd => hd, fun _ hc => .inl (List.mem_of_mem_erase hc),
    fun _ hle hlt => absurd hlt hle.not_gt⟩

end Ngnet.QuicEndpoint
