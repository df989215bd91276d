import Mathlib.Logic.Function.Basic
import Mathlib.Logic.Relation
import Mathlib.Data.List.Perm.Basic
import Ngnet.QmuxVarints

/-!
# Where datagrams wait

What the endpoint is for, as far as datagrams go. A connection has a slot for one datagram; the owner of a
detached one has a queue, with a place behind it for its close; and an outbox is shared by all. A step moves
one datagram from one of these places to the next.

`Ordered` says that what a connection produced leaves in the order of its production, `Conserved` that it is
in one place until it leaves.
-/

namespace Ngnet.QuicDatagramLedger
open QmuxVarints

/-- A datagram, and the connection that produced it, if one did. -/
abbrev Datagram := Option ℕ × Bytes

def sentBy (origin : Option ℕ) (datagrams : List Datagram) : List Bytes :=
  (datagrams.filter (·.1 = origin)).map (·.2)

@[simp] theorem sentBy_nil (origin : Option ℕ) : sentBy origin [] = [] := rfl

@[simp] theorem sentBy_append (origin : Option ℕ) (l l' : List Datagram) :
    sentBy origin (l ++ l') = sentBy origin l ++ sentBy origin l' := by
  simp [sentBy]

@[simp] theorem sentBy_cons (origin : Option ℕ) (x : Datagram) (l : List Datagram) :
    sentBy origin (x :: l) = (if x.1 = origin then [x.2] else []) ++ sentBy origin l := by
  by_cases h : x.1 = origin
  · simp [sentBy, h]
  · simp [sentBy, h]

theorem sentBy_eq_nil {origin : Option ℕ} {l : List Datagram} (h : ∀ x ∈ l, x.1 ≠ origin) : sentBy origin l = [] := by
  simp only [sentBy, List.map_eq_nil_iff, List.filter_eq_nil_iff]
  intro x hx
  simpa using h x hx

/-- What the endpoint holds of a connection: what it shares with the handle, whether the endpoint drives
it, and the datagram that the socket refused. -/
structure Slot where
  shared : ℕ
  driven : Bool
  pending : Option Bytes

structure Queue where
  outbound : List Bytes := []
  close : Option Bytes := none
  terminal : Bool := false

def Queue.held (q : Queue) : List Bytes := q.outbound ++ q.close.toList

def Queue.take (q : Queue) : Option (Bytes × Queue) :=
  match q.outbound with
  | datagram :: outbound => some (datagram, { q with outbound })
  | [] => q.close.map fun datagram => (datagram, { q with close := none })

theorem Queue.held_take {q q' : Queue} {d : Bytes} (h : q.take = some (d, q')) :
    q.held = d :: q'.held ∧ q'.terminal = q.terminal := by
  rw [take] at h
  split at h
  · rename_i houtbound
    obtain ⟨rfl, rfl⟩ := Prod.mk.inj (Option.some.inj h)
    simp [held, houtbound]
  · rename_i houtbound
    obtain ⟨_, hclose, heq⟩ := Option.map_eq_some_iff.mp h
    obtain ⟨rfl, rfl⟩ := Prod.mk.inj heq
    simp [held, houtbound, hclose]

structure Ledger where
  slots : ℕ → Option Slot
  queues : ℕ → Queue
  created : ℕ
  nextIndex : ℕ
  dials : List ℕ
  detached : List ℕ
  outbox : List Datagram
  produced : List Datagram
  completed : List Datagram

namespace Ledger

def setSlot (L : Ledger) (i : ℕ) (slot : Option Slot) : Ledger := { L with slots := Function.update L.slots i slot }

def setQueue (L : Ledger) (c : ℕ) (queue : Queue) : Ledger := { L with queues := Function.update L.queues c queue }

def produce (L : Ledger) (x : Datagram) : Ledger := { L with produced := L.produced ++ [x] }

def complete (L : Ledger) (x : Datagram) : Ledger := { L with completed := L.completed ++ [x] }

/-- No slot is that of `c`. -/
def Untracked (L : Ledger) (c : ℕ) : Prop := ∀ i slot, L.slots i = some slot → slot.shared ≠ c

end Ledger

/-- The steps that something is asked of. -/
inductive Kind
  | divert
  | lose
  | queue (c : ℕ)
  | remove (i : ℕ)

/-- One step, which takes of these kinds of steps only those that `may` be taken. -/
inductive Step (may : Kind → Prop) (L : Ledger) : Ledger → Prop
  | ask : Step may L { L with
      created := L.created + 1, queues := Function.update L.queues L.created {}, dials := L.dials ++ [L.created] }
  | forget {dials : List ℕ} (h : dials.Subperm L.dials) : Step may L { L with dials }
  | track {c : ℕ} {dials : List ℕ} (h : L.dials.Perm (c :: dials)) : Step may L { L with
      dials, slots := Function.update L.slots L.nextIndex (some ⟨c, true, none⟩), nextIndex := L.nextIndex + 1 }
  | produce {i : ℕ} {slot : Slot} (h : L.slots i = some slot) (hdriven : slot.driven = true)
      (hpending : slot.pending = none) (d : Bytes) :
    Step may L ((L.produce (some slot.shared, d)).setSlot i (some { slot with pending := some d }))
  | unqueue {i : ℕ} {slot : Slot} (h : L.slots i = some slot) (hpending : slot.pending = none) {d : Bytes} {q : Queue}
      (hqueue : (L.queues slot.shared).take = some (d, q)) :
    Step may L ((L.setQueue slot.shared q).setSlot i (some { slot with pending := some d }))
  | send {i : ℕ} {slot : Slot} (h : L.slots i = some slot) {d : Bytes} (hpending : slot.pending = some d) :
    Step may L ((L.complete (some slot.shared, d)).setSlot i (some { slot with pending := none }))
  | lose {i : ℕ} {slot : Slot} (hmay : may .lose) (h : L.slots i = some slot) :
    Step may L (L.setSlot i (some { slot with pending := none }))
  | divert {i : ℕ} {slot : Slot} (hmay : may .divert) (h : L.slots i = some slot) (hdriven : slot.driven = true)
      (d : Bytes) : Step may L { L.produce (some slot.shared, d) with outbox := L.outbox ++ [(some slot.shared, d)] }
  | answer (d : Bytes) : Step may L { L.produce (none, d) with outbox := L.outbox ++ [(none, d)] }
  | sendOutbox {x : Datagram} {rest : List Datagram} (h : L.outbox = x :: rest) :
    Step may L { L.complete x with outbox := rest }
  | loseOutbox (hmay : may .lose) : Step may L { L with outbox := L.outbox.tail }
  | handOver {i : ℕ} {slot : Slot} (h : L.slots i = some slot) (hdriven : slot.driven = true) :
    Step may L { L.setSlot i (some { slot with driven := false }) with detached := L.detached ++ [slot.shared] }
  | own {detached : List ℕ} (h : detached ⊆ L.detached) : Step may L { L with detached }
  | queue {c : ℕ} (hmay : may (.queue c)) (h : c ∈ L.detached) (d : Bytes) :
    Step may L ((L.produce (some c, d)).setQueue c { L.queues c with outbound := (L.queues c).outbound ++ [d] })
  | queueClose {c : ℕ} (hmay : may (.queue c)) (h : c ∈ L.detached) (hclose : (L.queues c).close = none) (d : Bytes) :
    Step may L ((L.produce (some c, d)).setQueue c { L.queues c with close := some d })
  | finish (c : ℕ) : Step may L (L.setQueue c { L.queues c with terminal := true })
  | remove {i : ℕ} (hmay : may (.remove i)) : Step may L (L.setSlot i none)

abbrev Steps (may : Kind → Prop) : Ledger → Ledger → Prop := Relation.ReflTransGen (Step may)

/-! ## A datagram in hand -/

theorem setSlot_self {L : Ledger} {i : ℕ} {slot : Slot} (h : L.slots i = some slot) : L.setSlot i (some slot) = L := by
  rw [Ledger.setSlot, ← h, Function.update_eq_self]

theorem setSlot_setSlot (L : Ledger) (i : ℕ) (slot slot' : Option Slot) :
    (L.setSlot i slot).setSlot i slot' = L.setSlot i slot' := by
  simp [Ledger.setSlot]

theorem setQueue_self {L : Ledger} {c : ℕ} {q : Queue} (h : L.queues c = q) : L.setQueue c q = L := by
  rw [Ledger.setQueue, ← h, Function.update_eq_self]

/-- A datagram was taken out of its place, or was just produced: it could have gone to the slot, which is
free. -/
structure InHand (may : Kind → Prop) (L L' : Ledger) (i : ℕ) (slot : Slot) (d : Bytes) : Prop where
  free : slot.pending = none
  tracked : L'.slots i = some slot
  kept : Steps may L (L'.setSlot i (some { slot with pending := some d }))

section InHand
variable {may : Kind → Prop} {L L' : Ledger} {i : ℕ} {slot : Slot} {d : Bytes}

theorem InHand.emptied (h : InHand may L L' i slot d) : ({ slot with pending := none } : Slot) = slot := by
  rw [← h.free]

theorem InHand.sent (h : InHand may L L' i slot d) : Steps may L (L'.complete (some slot.shared, d)) := by
  have hsend : Step may (L'.setSlot i (some { slot with pending := some d })) _ := Step.send (i := i) (d := d)
    (Function.update_self ..) rfl
  change Step may _ (((L'.complete (some slot.shared, d)).setSlot i _).setSlot i _) at hsend
  rw [setSlot_setSlot, h.emptied, setSlot_self (L := L'.complete (some slot.shared, d)) h.tracked] at hsend
  exact h.kept.tail hsend

theorem InHand.lost (h : InHand may L L' i slot d) (hmay : may .lose) : Steps may L L' := by
  have hlose := Step.lose (L := L'.setSlot i (some { slot with pending := some d })) (i := i) hmay
    (Function.update_self ..)
  rw [setSlot_setSlot, h.emptied, setSlot_self h.tracked] at hlose
  exact h.kept.tail hlose

theorem InHand.of_steps {L₀ : Ledger} (h : InHand may L L' i slot d) (hsteps : Steps may L₀ L) :
    InHand may L₀ L' i slot d := ⟨h.free, h.tracked, hsteps.trans h.kept⟩

theorem inHand_pending (h : L.slots i = some slot) (hpending : slot.pending = some d) :
    InHand may L (L.setSlot i (some { slot with pending := none })) i { slot with pending := none } d where
  free := rfl
  tracked := Function.update_self ..
  kept := by
    rw [setSlot_setSlot]
    have hback : ({ slot with pending := some d } : Slot) = slot := by
      rw [← hpending]
    rw [hback, setSlot_self h]

theorem inHand_queued (h : L.slots i = some slot) (hpending : slot.pending = none) {q : Queue}
    (hqueue : (L.queues slot.shared).take = some (d, q)) : InHand may L (L.setQueue slot.shared q) i slot d :=
  ⟨hpending, h, .single (.unqueue h hpending hqueue)⟩

theorem inHand_produced (h : L.slots i = some slot) (hdriven : slot.driven = true) (hpending : slot.pending = none) :
    InHand may L (L.produce (some slot.shared, d)) i slot d :=
  ⟨hpending, h, .single (.produce h hdriven hpending d)⟩

end InHand

/-! ## Who shares what -/

/-- A connection that was asked for is waiting to be dialled, tracked once, or gone; only a detached one
has an owner, and only an owner queues. -/
structure Sound (L : Ledger) : Prop where
  tracked : ∀ i slot, L.slots i = some slot → i < L.nextIndex ∧ slot.shared < L.created ∧ slot.shared ∉ L.dials
  once : ∀ i j slot slot', L.slots i = some slot → L.slots j = some slot' → slot.shared = slot'.shared → i = j
  nodup : L.dials.Nodup
  asked : ∀ c ∈ L.dials, c < L.created
  owned : ∀ c, c ∈ L.detached ∨ (L.queues c).held ≠ [] →
    c < L.created ∧ c ∉ L.dials ∧ ∀ i slot, L.slots i = some slot → slot.shared = c → slot.driven = false
  silent : ∀ c x, x ∈ L.produced ∨ x ∈ L.completed ∨ x ∈ L.outbox → x.1 = some c → c < L.created ∧ c ∉ L.dials

section Sound
variable {L L' : Ledger} {may : Kind → Prop} {i c : ℕ} {slot : Slot}

theorem slots_update {L : Ledger} {i : ℕ} {slot : Option Slot} {j : ℕ} {s : Slot}
    (h : Function.update L.slots i slot j = some s) : (j = i ∧ slot = some s) ∨ (j ≠ i ∧ L.slots j = some s) := by
  by_cases hj : j = i
  · subst hj
    rw [Function.update_self] at h
    exact .inl ⟨rfl, h⟩
  · rw [Function.update_of_ne hj] at h
    exact .inr ⟨hj, h⟩

theorem Sound.setSlot (h : Sound L) (slot' : Slot) (hslot : L.slots i = some slot) (hshared : slot'.shared = slot.shared)
    (hdriven : slot.driven = false → slot'.driven = false) : Sound (L.setSlot i (some slot')) where
  tracked j s hs := by
    rcases slots_update hs with ⟨rfl, heq⟩ | ⟨-, hs⟩
    · cases heq
      rw [hshared]
      exact h.tracked _ _ hslot
    · exact h.tracked j s hs
  once j k s s' hs hs' heq := by
    rcases slots_update hs with ⟨hj, hnew⟩ | ⟨-, hs⟩
    · cases hnew
      rcases slots_update hs' with ⟨hk, -⟩ | ⟨-, hs'⟩
      · exact hj.trans hk.symm
      · exact hj.trans (h.once _ _ _ _ hslot hs' (hshared ▸ heq))
    · rcases slots_update hs' with ⟨hk, hnew⟩ | ⟨-, hs'⟩
      · cases hnew
        exact (h.once _ _ _ _ hs hslot (heq.trans hshared)).trans hk.symm
      · exact h.once _ _ _ _ hs hs' heq
  nodup := h.nodup
  asked := h.asked
  owned c hc := by
    obtain ⟨hlt, hdials, hslots⟩ := h.owned c hc
    refine ⟨hlt, hdials, fun j s hs heq => ?_⟩
    rcases slots_update hs with ⟨-, hnew⟩ | ⟨-, hs⟩
    · cases hnew
      exact hdriven (hslots _ _ hslot (hshared ▸ heq))
    · exact hslots j s hs heq
  silent := h.silent

theorem Sound.setQueue (h : Sound L) {q : Queue} (hq : q.held ≠ [] → c ∈ L.detached ∨ (L.queues c).held ≠ []) :
    Sound (L.setQueue c q) where
  tracked := h.tracked
  once := h.once
  nodup := h.nodup
  asked := h.asked
  owned d hd := by
    apply h.owned d
    by_cases hdc : d = c
    · subst hdc
      refine hd.elim .inl fun hheld => hq ?_
      simpa [Ledger.setQueue] using hheld
    · simpa [Ledger.setQueue, Function.update_of_ne hdc] using hd
  silent := h.silent

theorem Sound.produce (h : Sound L) {x : Datagram} (hx : ∀ c, x.1 = some c → c < L.created ∧ c ∉ L.dials) :
    Sound (L.produce x) where
  tracked := h.tracked
  once := h.once
  nodup := h.nodup
  asked := h.asked
  owned := h.owned
  silent c y hy heq := by
    rcases hy with hy | hy
    · rcases List.mem_append.mp hy with hy | hy
      · exact h.silent c y (.inl hy) heq
      · exact hx c (List.mem_singleton.mp hy ▸ heq)
    · exact h.silent c y (.inr hy) heq

theorem Sound.complete (h : Sound L) {x : Datagram} (hx : ∀ c, x.1 = some c → c < L.created ∧ c ∉ L.dials) :
    Sound (L.complete x) where
  tracked := h.tracked
  once := h.once
  nodup := h.nodup
  asked := h.asked
  owned := h.owned
  silent c y hy heq := by
    rcases hy with hy | hy | hy
    · exact h.silent c y (.inl hy) heq
    · rcases List.mem_append.mp hy with hy | hy
      · exact h.silent c y (.inr (.inl hy)) heq
      · exact hx c (List.mem_singleton.mp hy ▸ heq)
    · exact h.silent c y (.inr (.inr hy)) heq

theorem Sound.outbox (h : Sound L) {outbox : List Datagram}
    (hout : ∀ x ∈ outbox, x ∈ L.outbox ∨ ∀ c, x.1 = some c → c < L.created ∧ c ∉ L.dials) :
    Sound { L with outbox } where
  tracked := h.tracked
  once := h.once
  nodup := h.nodup
  asked := h.asked
  owned := h.owned
  silent c y hy heq := by
    rcases hy with hy | hy | hy
    · exact h.silent c y (.inl hy) heq
    · exact h.silent c y (.inr (.inl hy)) heq
    · rcases hout y hy with hy | hnew
      · exact h.silent c y (.inr (.inr hy)) heq
      · exact hnew c heq

theorem Sound.of_slot (h : Sound L) (hslot : L.slots i = some slot) :
    ∀ c, some slot.shared = some c → c < L.created ∧ c ∉ L.dials := by
  intro c heq
  cases heq
  exact (h.tracked i slot hslot).2

theorem Sound.step (h : Sound L) (hstep : Step may L L') : Sound L' := by
  cases hstep with
  | ask =>
    have hne : ∀ c, c < L.created → c ∉ L.dials → c < L.created + 1 ∧ c ∉ L.dials ++ [L.created] := by
      intro c hlt hdials
      refine ⟨by omega, ?_⟩
      simp only [List.mem_append, List.mem_singleton, hdials, false_or]
      omega
    refine ⟨fun i slot hslot => ?_, h.once, ?_, ?_, ?_, ?_⟩
    · obtain ⟨hi, hc, hdials⟩ := h.tracked i slot hslot
      exact ⟨hi, hne _ hc hdials⟩
    · refine List.nodup_append.mpr ⟨h.nodup, List.pairwise_singleton _ _, ?_⟩
      rintro c hc d hd rfl
      have := h.asked c hc
      rw [List.mem_singleton] at hd
      omega
    · intro c hc
      rcases List.mem_append.mp hc with hc | hc
      · have := h.asked c hc
        show c < L.created + 1
        omega
      · rw [List.mem_singleton] at hc
        show c < L.created + 1
        omega
    · intro c hc
      have hold : c ∈ L.detached ∨ (L.queues c).held ≠ [] := by
        refine hc.imp_right fun hheld => ?_
        by_cases heq : c = L.created
        · subst heq
          simp [Queue.held] at hheld
        · simpa [Function.update_of_ne heq] using hheld
      obtain ⟨hlt, hdials, hslots⟩ := h.owned c hold
      obtain ⟨hlt', hdials'⟩ := hne c hlt hdials
      exact ⟨hlt', hdials', hslots⟩
    · intro c x hx heq
      obtain ⟨hlt, hdials⟩ := h.silent c x hx heq
      exact hne c hlt hdials
  | forget hsub =>
    have hnot : ∀ {c}, c ∉ L.dials → c ∉ _ := fun hc hmem => hc (hsub.subset hmem)
    have hasked : ∀ c ∈ _, c < L.created := fun c hc => h.asked c (hsub.subset hc)
    obtain ⟨dials, hperm, hsublist⟩ := hsub
    have hnodup := hperm.nodup_iff.mp (h.nodup.sublist hsublist)
    refine ⟨fun i slot hslot => ?_, h.once, hnodup, hasked, ?_, ?_⟩
    · obtain ⟨hi, hc, hdials⟩ := h.tracked i slot hslot
      exact ⟨hi, hc, hnot hdials⟩
    · intro c hc
      obtain ⟨hlt, hdials, hslots⟩ := h.owned c hc
      exact ⟨hlt, hnot hdials, hslots⟩
    · intro c x hx heq
      obtain ⟨hlt, hdials⟩ := h.silent c x hx heq
      exact ⟨hlt, hnot hdials⟩
  | @track c dials hperm =>
    have hc : c ∈ L.dials := hperm.mem_iff.mpr List.mem_cons_self
    have hnodup : (c :: dials).Nodup := hperm.nodup h.nodup
    have hold : ∀ {d}, d ∈ dials → d ∈ L.dials := fun hmem => hperm.mem_iff.mpr (List.mem_cons_of_mem _ hmem)
    have hnot : ∀ {d}, d ∉ L.dials → d ∉ dials := fun hd hmem => hd (hold hmem)
    have hfree : ∀ i slot, L.slots i = some slot → slot.shared ≠ c := by
      rintro i slot hslot rfl
      exact (h.tracked i slot hslot).2.2 hc
    refine ⟨?_, ?_, (List.nodup_cons.mp hnodup).2, fun d hd => h.asked d (hold hd), ?_, ?_⟩
    · intro i slot hslot
      rcases slots_update hslot with ⟨rfl, heq⟩ | ⟨-, hslot⟩
      · cases heq
        exact ⟨Nat.lt_succ_self _, h.asked c hc, (List.nodup_cons.mp hnodup).1⟩
      · obtain ⟨hi, hlt, hdials⟩ := h.tracked i slot hslot
        exact ⟨Nat.lt_succ_of_lt hi, hlt, hnot hdials⟩
    · intro i j slot slot' hslot hslot' heq
      rcases slots_update hslot with ⟨rfl, hnew⟩ | ⟨-, hslot⟩
      · rcases slots_update hslot' with ⟨rfl, -⟩ | ⟨-, hslot'⟩
        · rfl
        · cases hnew
          exact (hfree j slot' hslot' heq.symm).elim
      · rcases slots_update hslot' with ⟨rfl, hnew⟩ | ⟨-, hslot'⟩
        · cases hnew
          exact (hfree i slot hslot heq).elim
        · exact h.once i j slot slot' hslot hslot' heq
    · intro d hd
      obtain ⟨hlt, hdials, hslots⟩ := h.owned d hd
      refine ⟨hlt, hnot hdials, fun i slot hslot heq => ?_⟩
      rcases slots_update hslot with ⟨-, hnew⟩ | ⟨-, hslot⟩
      · cases hnew
        exact (hdials (heq ▸ hc)).elim
      · exact hslots i slot hslot heq
    · intro d x hx heq
      obtain ⟨hlt, hdials⟩ := h.silent d x hx heq
      exact ⟨hlt, hnot hdials⟩
  | produce hslot hdriven hpending d => exact (h.produce (h.of_slot hslot)).setSlot _ hslot rfl id
  | unqueue hslot hpending hqueue =>
    rename_i i slot d q
    have hheld : (L.queues slot.shared).held ≠ [] := by simp [(Queue.held_take hqueue).1]
    exact Sound.setSlot (L := L.setQueue slot.shared q) (h.setQueue fun _ => .inr hheld) _ hslot rfl id
  | send hslot hpending => exact (h.complete (h.of_slot hslot)).setSlot _ hslot rfl id
  | lose _ hslot => exact h.setSlot _ hslot rfl id
  | divert _ hslot hdriven d =>
    refine (h.produce (h.of_slot hslot)).outbox fun x hx => ?_
    rcases List.mem_append.mp hx with hx | hx
    · exact .inl hx
    · rw [List.mem_singleton.mp hx]
      exact .inr (h.of_slot hslot)
  | answer d =>
    refine (h.produce (x := (none, d)) nofun).outbox fun x hx => ?_
    rcases List.mem_append.mp hx with hx | hx
    · exact .inl hx
    · rw [List.mem_singleton.mp hx]
      exact .inr nofun
  | sendOutbox hout =>
    rename_i x rest
    refine (h.complete (x := x) fun c => h.silent c x ?_).outbox fun y hy => .inl ?_
    · exact .inr (.inr (hout ▸ List.mem_cons_self))
    · exact hout ▸ List.mem_cons_of_mem x hy
  | loseOutbox => exact h.outbox fun x hx => .inl (List.mem_of_mem_tail hx)
  | handOver hslot hdriven =>
    rename_i i slot
    have hset := h.setSlot { slot with driven := false } hslot rfl fun _ => rfl
    refine { hset with owned := fun c hc => ?_ }
    by_cases heq : c = slot.shared
    · subst heq
      refine ⟨(h.tracked i slot hslot).2.1, (h.tracked i slot hslot).2.2, fun j s hs hshared => ?_⟩
      rcases slots_update hs with ⟨-, hs⟩ | ⟨hne, hs⟩
      · cases hs
        rfl
      · exact (hne (h.once j i s slot hs hslot hshared)).elim
    · exact hset.owned c (hc.imp_left fun hmem => (List.mem_append.mp hmem).resolve_right (by simpa using heq))
  | own hsub => exact { h with owned := fun c hc => h.owned c (hc.imp_left fun hmem => hsub hmem) }
  | queue _ hmem d =>
    refine Sound.setQueue (h.produce (x := (some _, d)) ?_) fun _ => .inl hmem
    intro c heq
    cases heq
    exact ⟨(h.owned _ (.inl hmem)).1, (h.owned _ (.inl hmem)).2.1⟩
  | queueClose _ hmem hclose d =>
    refine Sound.setQueue (h.produce (x := (some _, d)) ?_) fun _ => .inl hmem
    intro c heq
    cases heq
    exact ⟨(h.owned _ (.inl hmem)).1, (h.owned _ (.inl hmem)).2.1⟩
  | finish c => exact h.setQueue fun hheld => .inr hheld
  | @remove i _ =>
    have hslots : ∀ {j s}, Function.update L.slots i none j = some s → L.slots j = some s := by
      intro j s hs
      rcases slots_update hs with ⟨-, hnone⟩ | ⟨-, hs⟩
      · cases hnone
      · exact hs
    refine ⟨fun j s hs => h.tracked j s (hslots hs), ?_, h.nodup, h.asked, fun c hc => ?_, h.silent⟩
    · exact fun j k s s' hs hs' => h.once j k s s' (hslots hs) (hslots hs')
    · obtain ⟨hlt, hdials, hdriven⟩ := h.owned c hc
      exact ⟨hlt, hdials, fun j s hs => hdriven j s (hslots hs)⟩

theorem Sound.steps (h : Sound L) (hsteps : Steps may L L') : Sound L' := by
  induction hsteps with
  | refl => exact h
  | tail _ hstep ih => exact ih.step hstep

end Sound

/-! ## In the order of production -/

theorem held_of_driven {L : Ledger} (h : Sound L) {i : ℕ} {slot : Slot} (hslot : L.slots i = some slot)
    (hdriven : slot.driven = true) : (L.queues slot.shared).held = [] := by
  by_contra hheld
  have hnot := (h.owned slot.shared (.inr hheld)).2.2 i slot hslot rfl
  simp [hdriven] at hnot

theorem held_of_asked {L : Ledger} (h : Sound L) {c : ℕ} (hc : c ∈ L.dials) : (L.queues c).held = [] := by
  by_contra hheld
  exact (h.owned c (.inr hheld)).2.1 hc

theorem silent_of_asked {L : Ledger} (h : Sound L) {c : ℕ} (hc : c ∈ L.dials) :
    sentBy (some c) L.produced = [] ∧ sentBy (some c) L.completed = [] ∧ sentBy (some c) L.outbox = [] :=
  ⟨sentBy_eq_nil fun _ hx heq => (h.silent c _ (.inl hx) heq).2 hc,
    sentBy_eq_nil fun _ hx heq => (h.silent c _ (.inr (.inl hx)) heq).2 hc,
    sentBy_eq_nil fun _ hx heq => (h.silent c _ (.inr (.inr hx)) heq).2 hc⟩

/-- What has left of a connection's datagrams left in order, and what waits comes behind it in order. -/
structure Ordered (L : Ledger) : Prop where
  waiting : ∀ i slot, L.slots i = some slot →
    (sentBy (some slot.shared) L.completed ++ slot.pending.toList ++ (L.queues slot.shared).held).Sublist
      (sentBy (some slot.shared) L.produced)
  sent : ∀ c, (sentBy (some c) L.completed).Sublist (sentBy (some c) L.produced)
  strangers : ∀ x ∈ L.outbox, x.1 = none

section Ordered
variable {L L' : Ledger} {may : Kind → Prop}

theorem Ordered.change (h : Ordered L) (hsound : Sound L) {i : ℕ} {slot : Slot} (slot' : Slot) (hslot : L.slots i = some slot)
    (hshared : slot'.shared = slot.shared) (hslots : L'.slots = Function.update L.slots i (some slot'))
    (hqueues : ∀ c, c ≠ slot.shared → L'.queues c = L.queues c)
    (hcompleted : ∀ c, c ≠ slot.shared → sentBy (some c) L'.completed = sentBy (some c) L.completed)
    (hproduced : ∀ c, c ≠ slot.shared → sentBy (some c) L'.produced = sentBy (some c) L.produced)
    (houtbox : L'.outbox = L.outbox)
    (hnew : (sentBy (some slot.shared) L'.completed ++ slot'.pending.toList ++ (L'.queues slot.shared).held).Sublist
      (sentBy (some slot.shared) L'.produced)) : Ordered L' where
  waiting j s hs := by
    rw [hslots] at hs
    rcases slots_update hs with ⟨-, heq⟩ | ⟨hne, hs⟩
    · cases heq
      rw [hshared]
      exact hnew
    · have hother : s.shared ≠ slot.shared := fun heq => hne (hsound.once j i s slot hs hslot heq)
      rw [hcompleted _ hother, hproduced _ hother, hqueues _ hother]
      exact h.waiting j s hs
  sent c := by
    by_cases heq : c = slot.shared
    · subst heq
      refine List.Sublist.trans ?_ hnew
      rw [List.append_assoc]
      exact List.sublist_append_left _ _
    · rw [hcompleted c heq, hproduced c heq]
      exact h.sent c
  strangers := houtbox ▸ h.strangers

theorem Ordered.step (h : Ordered L) (hsound : Sound L) (hdivert : ¬ may .divert)
    (hqueue : ∀ c, may (.queue c) → (L.queues c).close = none) (hstep : Step may L L') : Ordered L' := by
  cases hstep with
  | ask =>
    refine ⟨fun i slot hslot => ?_, h.sent, h.strangers⟩
    have hne : slot.shared ≠ L.created := (hsound.tracked i slot hslot).2.1.ne
    simpa [Function.update_of_ne hne] using h.waiting i slot hslot
  | forget => exact ⟨h.waiting, h.sent, h.strangers⟩
  | track hperm =>
    have hc := hperm.mem_iff.mpr List.mem_cons_self
    refine ⟨fun i slot hslot => ?_, h.sent, h.strangers⟩
    rcases slots_update hslot with ⟨-, heq⟩ | ⟨-, hslot⟩
    · cases heq
      simp [held_of_asked hsound hc, (silent_of_asked hsound hc).2.1]
    · exact h.waiting i slot hslot
  | @produce i slot hslot hdriven hpending d =>
    refine h.change hsound { slot with pending := some d } hslot rfl rfl (fun _ _ => rfl) (fun _ _ => rfl)
      (fun c hne => by simp [Ledger.setSlot, Ledger.produce, hne.symm]) rfl ?_
    have hold := h.waiting i slot hslot
    rw [hpending, held_of_driven hsound hslot hdriven] at hold
    have hheld : (((L.produce (some slot.shared, d)).setSlot i (some { slot with pending := some d })).queues
      slot.shared).held = [] := held_of_driven hsound hslot hdriven
    rw [hheld]
    simpa [Ledger.setSlot, Ledger.produce] using hold
  | @unqueue i slot hslot hpending d q htake =>
    refine h.change hsound { slot with pending := some d } hslot rfl rfl
      (fun c hne => Function.update_of_ne hne _ _) (fun _ _ => rfl) (fun _ _ => rfl) rfl ?_
    have hold := h.waiting i slot hslot
    rw [hpending, (Queue.held_take htake).1] at hold
    simpa [Ledger.setSlot, Ledger.setQueue] using hold
  | @send i slot hslot d hpending =>
    refine h.change hsound { slot with pending := none } hslot rfl rfl (fun _ _ => rfl)
      (fun c hne => by simp [Ledger.setSlot, Ledger.complete, hne.symm]) (fun _ _ => rfl) rfl ?_
    have hold := h.waiting i slot hslot
    rw [hpending] at hold
    simpa [Ledger.setSlot, Ledger.complete] using hold
  | @lose i slot _ hslot =>
    refine h.change hsound { slot with pending := none } hslot rfl rfl (fun _ _ => rfl) (fun _ _ => rfl)
      (fun _ _ => rfl) rfl ?_
    refine List.Sublist.trans ?_ (h.waiting i slot hslot)
    simp [Ledger.setSlot]
  | divert hmay => exact (hdivert hmay).elim
  | answer d =>
    refine ⟨fun i slot hslot => ?_, fun c => ?_, fun x hx => ?_⟩
    · simpa [Ledger.produce] using h.waiting i slot hslot
    · simpa [Ledger.produce] using h.sent c
    · rcases List.mem_append.mp hx with hx | hx
      · exact h.strangers x hx
      · rw [List.mem_singleton.mp hx]
  | @sendOutbox x rest hout =>
    have hx : x.1 = none := h.strangers x (hout ▸ List.mem_cons_self)
    refine ⟨fun i slot hslot => ?_, fun c => ?_, fun y hy => h.strangers y (hout ▸ List.mem_cons_of_mem x hy)⟩
    · simpa [Ledger.complete, hx] using h.waiting i slot hslot
    · simpa [Ledger.complete, hx] using h.sent c
  | loseOutbox => exact ⟨h.waiting, h.sent, fun x hx => h.strangers x (List.mem_of_mem_tail hx)⟩
  | @handOver i slot hslot _ =>
    have hchange : Ordered (L.setSlot i (some { slot with driven := false })) :=
      h.change hsound { slot with driven := false } hslot rfl rfl (fun _ _ => rfl) (fun _ _ => rfl)
        (fun _ _ => rfl) rfl (h.waiting i slot hslot)
    exact ⟨hchange.waiting, hchange.sent, hchange.strangers⟩
  | own => exact ⟨h.waiting, h.sent, h.strangers⟩
  | @queue c hmay _ d =>
    have hclose := hqueue c hmay
    refine ⟨fun i slot hslot => ?_, fun d' => ?_, h.strangers⟩
    · have hold := h.waiting i slot hslot
      by_cases heq : slot.shared = c
      · rw [heq] at hold ⊢
        simp only [Queue.held, hclose, Option.toList_none, List.append_nil] at hold
        simp only [Ledger.setQueue, Ledger.produce, sentBy_append, sentBy_cons, sentBy_nil, Queue.held,
          Function.update_self, hclose, Option.toList_none, List.append_nil, if_true]
        rw [← List.append_assoc]
        exact hold.append_right [d]
      · simpa [Ledger.setQueue, Ledger.produce, Ne.symm heq, Function.update_of_ne heq] using hold
    · simp only [Ledger.setQueue, Ledger.produce, sentBy_append]
      exact (h.sent d').trans (List.sublist_append_left _ _)
  | @queueClose c _ _ hclose d =>
    refine ⟨fun i slot hslot => ?_, fun d' => ?_, h.strangers⟩
    · have hold := h.waiting i slot hslot
      by_cases heq : slot.shared = c
      · rw [heq] at hold ⊢
        simp only [Queue.held, hclose, Option.toList_none, List.append_nil] at hold
        simp only [Ledger.setQueue, Ledger.produce, sentBy_append, sentBy_cons, sentBy_nil, Queue.held,
          Function.update_self, Option.toList_some, List.append_nil, if_true]
        rw [← List.append_assoc]
        exact hold.append_right [d]
      · simpa [Ledger.setQueue, Ledger.produce, Ne.symm heq, Function.update_of_ne heq] using hold
    · simp only [Ledger.setQueue, Ledger.produce, sentBy_append]
      exact (h.sent d').trans (List.sublist_append_left _ _)
  | finish c =>
    refine ⟨fun i slot hslot => ?_, h.sent, h.strangers⟩
    have hold := h.waiting i slot hslot
    by_cases heq : slot.shared = c
    · rw [heq] at hold ⊢
      simpa [Ledger.setQueue, Queue.held] using hold
    · simpa [Ledger.setQueue, Function.update_of_ne heq] using hold
  | remove =>
    refine ⟨fun j s hs => ?_, h.sent, h.strangers⟩
    rcases slots_update hs with ⟨-, hnone⟩ | ⟨-, hs⟩
    · cases hnone
    · exact h.waiting j s hs

end Ordered

/-! ## In one place -/

/-- What was produced of a connection's datagrams has left, or waits in one of the places; of one that is
not tracked any longer, in the outbox. An owner that has not finished has a connection that is tracked. -/
structure Conserved (L : Ledger) : Prop where
  waiting : ∀ i slot, L.slots i = some slot →
    (sentBy (some slot.shared) L.completed ++ slot.pending.toList ++ (L.queues slot.shared).held ++
      sentBy (some slot.shared) L.outbox).Perm (sentBy (some slot.shared) L.produced)
  gone : ∀ c, L.Untracked c →
    (sentBy (some c) L.completed ++ sentBy (some c) L.outbox).Perm (sentBy (some c) L.produced)
  strangers : (sentBy none L.completed ++ sentBy none L.outbox).Perm (sentBy none L.produced)
  owners : ∀ c ∈ L.detached, (L.queues c).terminal = false → ¬ L.Untracked c

section Conserved
variable {L L' : Ledger} {may : Kind → Prop} {i : ℕ} {slot slot' : Slot}

theorem untracked_update (hslot : L.slots i = some slot) (hshared : slot'.shared = slot.shared)
    (hslots : L'.slots = Function.update L.slots i (some slot')) (c : ℕ) : L'.Untracked c ↔ L.Untracked c := by
  constructor
  · intro h j s hs
    by_cases hj : j = i
    · rw [hj, hslot] at hs
      cases hs
      exact hshared ▸ h i slot' (by rw [hslots, Function.update_self])
    · exact h j s (by rw [hslots, Function.update_of_ne hj, hs])
  · intro h j s hs
    rw [hslots] at hs
    rcases slots_update hs with ⟨-, heq⟩ | ⟨-, hs⟩
    · cases heq
      exact hshared ▸ h i slot hslot
    · exact h j s hs

theorem Conserved.change (h : Conserved L) (hsound : Sound L) (slot' : Slot) (hslot : L.slots i = some slot)
    (hshared : slot'.shared = slot.shared) (hslots : L'.slots = Function.update L.slots i (some slot'))
    (hqueues : ∀ c, (c ≠ slot.shared → L'.queues c = L.queues c) ∧ (L'.queues c).terminal = (L.queues c).terminal)
    (hcompleted : ∀ o, o ≠ some slot.shared → sentBy o L'.completed = sentBy o L.completed)
    (hproduced : ∀ o, o ≠ some slot.shared → sentBy o L'.produced = sentBy o L.produced)
    (houtbox : ∀ o, o ≠ some slot.shared → sentBy o L'.outbox = sentBy o L.outbox)
    (hdetached : ∀ c ∈ L'.detached, c ∈ L.detached ∨ c = slot.shared)
    (hnew : (sentBy (some slot.shared) L'.completed ++ slot'.pending.toList ++ (L'.queues slot.shared).held ++
      sentBy (some slot.shared) L'.outbox).Perm (sentBy (some slot.shared) L'.produced)) : Conserved L' where
  waiting j s hs := by
    rw [hslots] at hs
    rcases slots_update hs with ⟨-, heq⟩ | ⟨hne, hs⟩
    · cases heq
      rw [hshared]
      exact hnew
    · have hother : s.shared ≠ slot.shared := fun heq => hne (hsound.once j i s slot hs hslot heq)
      have hothers : some s.shared ≠ some slot.shared := fun heq => hother (Option.some.inj heq)
      rw [hcompleted _ hothers, hproduced _ hothers, houtbox _ hothers, (hqueues _).1 hother]
      exact h.waiting j s hs
  gone c hc := by
    rw [untracked_update hslot hshared hslots] at hc
    have hother : some c ≠ some slot.shared := fun heq => hc i slot hslot (Option.some.inj heq).symm
    rw [hcompleted _ hother, hproduced _ hother, houtbox _ hother]
    exact h.gone c hc
  strangers := by
    rw [hcompleted none nofun, hproduced none nofun, houtbox none nofun]
    exact h.strangers
  owners c hc hterminal := by
    rw [untracked_update hslot hshared hslots]
    rcases hdetached c hc with hc | rfl
    · exact h.owners c hc ((hqueues c).2 ▸ hterminal)
    · exact fun hnone => hnone i slot hslot rfl

theorem Conserved.step (h : Conserved L) (hsound : Sound L) (hlose : ¬ may .lose)
    (hqueue : ∀ c, may (.queue c) → (L.queues c).terminal = false)
    (hremove : ∀ i, may (.remove i) → ∀ slot, L.slots i = some slot →
      slot.pending = none ∧ (L.queues slot.shared).held = [] ∧
        (slot.driven = false → (L.queues slot.shared).terminal = true)) (hstep : Step may L L') : Conserved L' := by
  cases hstep with
  | ask =>
    refine ⟨fun i slot hslot => ?_, h.gone, h.strangers, fun c hc hterminal => h.owners c hc ?_⟩
    · have hne : slot.shared ≠ L.created := (hsound.tracked i slot hslot).2.1.ne
      simpa [Function.update_of_ne hne] using h.waiting i slot hslot
    · have hne : c ≠ L.created := (hsound.owned c (.inl hc)).1.ne
      simpa [Function.update_of_ne hne] using hterminal
  | forget => exact ⟨h.waiting, h.gone, h.strangers, h.owners⟩
  | @track c dials hperm =>
    have hc : c ∈ L.dials := hperm.mem_iff.mpr List.mem_cons_self
    have huntracked : ∀ d, Ledger.Untracked { L with
        dials, slots := Function.update L.slots L.nextIndex (some ⟨c, true, none⟩)
        nextIndex := L.nextIndex + 1 } d → L.Untracked d := by
      intro d hd i slot hslot
      have hi : i ≠ L.nextIndex := (hsound.tracked i slot hslot).1.ne
      exact hd i slot ((Function.update_of_ne hi _ _).trans hslot)
    refine ⟨fun i slot hslot => ?_, fun d hd => h.gone d (huntracked d hd), h.strangers,
      fun d hd hterminal hnone => h.owners d hd hterminal (huntracked d hnone)⟩
    rcases slots_update hslot with ⟨-, heq⟩ | ⟨-, hslot⟩
    · cases heq
      obtain ⟨hproduced, hcompleted, houtbox⟩ := silent_of_asked hsound hc
      simp [held_of_asked hsound hc, hproduced, hcompleted, houtbox]
    · exact h.waiting i slot hslot
  | @produce i slot hslot hdriven hpending d =>
    refine h.change hsound { slot with pending := some d } hslot rfl rfl (fun _ => ⟨fun _ => rfl, rfl⟩)
      (fun _ _ => rfl) (fun o ho => by simp [Ledger.setSlot, Ledger.produce, ho.symm]) (fun _ _ => rfl)
      (fun _ hc => .inl hc) ?_
    have hold := h.waiting i slot hslot
    rw [hpending] at hold
    refine List.perm_iff_count.mpr fun bytes => ?_
    have hcount := List.perm_iff_count.mp hold bytes
    simp only [Ledger.setSlot, Ledger.produce, sentBy_append, sentBy_cons, sentBy_nil, List.count_append, if_true,
      Option.toList_none, Option.toList_some, List.append_nil] at hcount ⊢
    omega
  | @unqueue i slot hslot hpending d q htake =>
    refine h.change hsound { slot with pending := some d } hslot rfl rfl
      (fun c => ⟨fun hne => Function.update_of_ne hne _ _, ?_⟩)
      (fun _ _ => rfl) (fun _ _ => rfl) (fun _ _ => rfl) (fun _ hc => .inl hc) ?_
    · by_cases heq : c = slot.shared
      · subst heq
        simpa [Ledger.setSlot, Ledger.setQueue] using (Queue.held_take htake).2
      · simp [Ledger.setSlot, Ledger.setQueue, Function.update_of_ne heq]
    have hold := h.waiting i slot hslot
    rw [hpending, (Queue.held_take htake).1] at hold
    simpa [Ledger.setSlot, Ledger.setQueue] using hold
  | @send i slot hslot d hpending =>
    refine h.change hsound { slot with pending := none } hslot rfl rfl (fun _ => ⟨fun _ => rfl, rfl⟩)
      (fun o ho => by simp [Ledger.setSlot, Ledger.complete, ho.symm]) (fun _ _ => rfl) (fun _ _ => rfl)
      (fun _ hc => .inl hc) ?_
    have hold := h.waiting i slot hslot
    rw [hpending] at hold
    simpa [Ledger.setSlot, Ledger.complete] using hold
  | lose hmay => exact (hlose hmay).elim
  | @divert i slot _ hslot _ d =>
    have hself : L.slots = Function.update L.slots i (some slot) := by rw [← hslot, Function.update_eq_self]
    refine h.change hsound slot hslot rfl hself (fun _ => ⟨fun _ => rfl, rfl⟩) (fun _ _ => rfl)
      (fun o ho => by simp [Ledger.produce, ho.symm]) (fun o ho => by simp [ho.symm]) (fun _ hc => .inl hc) ?_
    refine List.perm_iff_count.mpr fun bytes => ?_
    have hcount := List.perm_iff_count.mp (h.waiting i slot hslot) bytes
    simp only [Ledger.produce, sentBy_append, sentBy_cons, sentBy_nil, List.count_append, if_true,
      List.append_nil] at hcount ⊢
    omega
  | answer d =>
    refine ⟨fun i slot hslot => ?_, fun c hc => ?_, ?_, h.owners⟩
    · simpa [Ledger.produce] using h.waiting i slot hslot
    · simpa [Ledger.produce] using h.gone c hc
    · have hold := h.strangers.append_right [d]
      simpa [Ledger.produce] using hold
  | @sendOutbox x rest hout =>
    have hmove : ∀ o (bytes : Bytes), List.count bytes (sentBy o (L.completed ++ [x])) +
        List.count bytes (sentBy o rest) = List.count bytes (sentBy o L.completed) +
        List.count bytes (sentBy o L.outbox) := by
      intro o bytes
      rw [hout]
      simp only [sentBy_append, sentBy_cons, sentBy_nil, List.count_append, List.append_nil]
      omega
    refine ⟨fun i slot hslot => ?_, fun c hc => ?_, ?_, h.owners⟩
    · refine List.perm_iff_count.mpr fun bytes => ?_
      have hcount := List.perm_iff_count.mp (h.waiting i slot hslot) bytes
      have hmoved := hmove (some slot.shared) bytes
      simp only [List.count_append, Ledger.complete] at hcount hmoved ⊢
      omega
    · refine List.perm_iff_count.mpr fun bytes => ?_
      have hcount := List.perm_iff_count.mp (h.gone c hc) bytes
      have hmoved := hmove (some c) bytes
      simp only [List.count_append, Ledger.complete] at hcount hmoved ⊢
      omega
    · refine List.perm_iff_count.mpr fun bytes => ?_
      have hcount := List.perm_iff_count.mp h.strangers bytes
      have hmoved := hmove none bytes
      simp only [List.count_append, Ledger.complete] at hcount hmoved ⊢
      omega
  | loseOutbox hmay => exact (hlose hmay).elim
  | @handOver i slot hslot _ =>
    refine h.change hsound { slot with driven := false } hslot rfl rfl (fun _ => ⟨fun _ => rfl, rfl⟩)
      (fun _ _ => rfl) (fun _ _ => rfl) (fun _ _ => rfl) (fun c hc => ?_) (h.waiting i slot hslot)
    exact (List.mem_append.mp hc).imp_right List.mem_singleton.mp
  | own hsub => exact ⟨h.waiting, h.gone, h.strangers, fun c hc => h.owners c (hsub hc)⟩
  | @queue c hmay hmem d =>
    have htracked := h.owners c hmem (hqueue c hmay)
    refine ⟨fun i slot hslot => ?_, fun c' hc' => ?_, ?_, fun c' hc' hterminal => h.owners c' hc' ?_⟩
    · have hold := h.waiting i slot hslot
      by_cases heq : slot.shared = c
      · rw [heq] at hold ⊢
        refine List.perm_iff_count.mpr fun bytes => ?_
        have hcount := List.perm_iff_count.mp hold bytes
        simp only [Ledger.setQueue, Ledger.produce, sentBy_append, sentBy_cons, sentBy_nil, Queue.held,
          Function.update_self, List.count_append, if_true, List.append_nil] at hcount ⊢
        omega
      · simpa [Ledger.setQueue, Ledger.produce, Ne.symm heq, Function.update_of_ne heq] using hold
    · have hne : c ≠ c' := by
        rintro rfl
        exact htracked hc'
      simpa [Ledger.setQueue, Ledger.produce, hne] using h.gone c' hc'
    · simpa [Ledger.setQueue, Ledger.produce] using h.strangers
    · by_cases heq : c' = c
      · subst heq
        simpa [Ledger.setQueue] using hterminal
      · simpa [Ledger.setQueue, Ledger.produce, Function.update_of_ne heq] using hterminal
  | @queueClose c hmay hmem hclose d =>
    have htracked := h.owners c hmem (hqueue c hmay)
    refine ⟨fun i slot hslot => ?_, fun c' hc' => ?_, ?_, fun c' hc' hterminal => h.owners c' hc' ?_⟩
    · have hold := h.waiting i slot hslot
      by_cases heq : slot.shared = c
      · rw [heq] at hold ⊢
        refine List.perm_iff_count.mpr fun bytes => ?_
        have hcount := List.perm_iff_count.mp hold bytes
        simp only [Ledger.setQueue, Ledger.produce, sentBy_append, sentBy_cons, sentBy_nil, Queue.held, hclose,
          Function.update_self, List.count_append, if_true, List.append_nil, Option.toList_none,
          Option.toList_some] at hcount ⊢
        omega
      · simpa [Ledger.setQueue, Ledger.produce, Ne.symm heq, Function.update_of_ne heq] using hold
    · have hne : c ≠ c' := by
        rintro rfl
        exact htracked hc'
      simpa [Ledger.setQueue, Ledger.produce, hne] using h.gone c' hc'
    · simpa [Ledger.setQueue, Ledger.produce] using h.strangers
    · by_cases heq : c' = c
      · subst heq
        simpa [Ledger.setQueue] using hterminal
      · simpa [Ledger.setQueue, Ledger.produce, Function.update_of_ne heq] using hterminal
  | finish c =>
    refine ⟨fun i slot hslot => ?_, h.gone, h.strangers, fun c' hc' hterminal => h.owners c' hc' ?_⟩
    · have hold := h.waiting i slot hslot
      by_cases heq : slot.shared = c
      · rw [heq] at hold ⊢
        simpa [Ledger.setQueue, Queue.held] using hold
      · simpa [Ledger.setQueue, Function.update_of_ne heq] using hold
    · by_cases heq : c' = c
      · subst heq
        simp [Ledger.setQueue] at hterminal
      · simpa [Ledger.setQueue, Function.update_of_ne heq] using hterminal
  | @remove i hmay =>
    have hslots : ∀ {j s}, Function.update L.slots i none j = some s → j ≠ i ∧ L.slots j = some s := by
      intro j s hs
      rcases slots_update hs with ⟨-, hnone⟩ | hs
      · cases hnone
      · exact hs
    refine ⟨fun j s hs => h.waiting j s (hslots hs).2, fun c hc => ?_, h.strangers, fun c hc hterminal hnone => ?_⟩
    · by_cases hmine : ∃ slot, L.slots i = some slot ∧ slot.shared = c
      · obtain ⟨slot, hslot, rfl⟩ := hmine
        obtain ⟨hpending, hheld, -⟩ := hremove i hmay slot hslot
        simpa [Ledger.setSlot, hpending, hheld] using h.waiting i slot hslot
      · refine h.gone c fun j s hs heq => ?_
        by_cases hj : j = i
        · exact hmine ⟨s, hj ▸ hs, heq⟩
        · exact hc j s ((Function.update_of_ne hj _ _).trans hs) heq
    · refine h.owners c hc hterminal fun j s hs heq => ?_
      by_cases hj : j = i
      · subst hj
        have hdriven := (hsound.owned c (.inl hc)).2.2 j s hs heq
        have hfinished := (hremove j hmay s hs).2.2 hdriven
        rw [heq] at hfinished
        simp [Ledger.setSlot, hfinished] at hterminal
      · exact hnone j s ((Function.update_of_ne hj _ _).trans hs) heq

end Conserved

end Ngnet.QuicDatagramLedger
