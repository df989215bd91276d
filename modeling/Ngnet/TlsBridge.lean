import Mathlib.Data.List.Nodup
import Mathlib.Data.List.Perm.Basic
import Mathlib.Logic.Function.Basic
import Ngnet.Histories
import Ngnet.QmuxVarints

/-!
# The TLS bridge of a QUIC connection

`tls_bridge.rs` of the crate `ngnet-quic`, with the lengths of `validate.rs`. A backend may call what it is lent in any
order and with any keys, and ngtcp2 calls back in any order; what each returns is part of an event. Of ngtcp2 there is
what the bridge has handed to it. At a key update it lends the secrets it holds for both directions, at the length of
the receive secret, and buffers of the lengths of the receive key.
-/

namespace Ngnet.TlsBridge
open QmuxVarints Histories

variable {κ η : Type}

/-! ## Lengths -/

inductive Error
  | backend (context : String)
  | native (code : ℤ) (context : String)
  | invalidInput (context : String)
  deriving DecidableEq, Repr

def minIvLen : ℕ := 8

def maxIvLen : ℕ := 64

def ivLen (len : ℕ) : Except Error Unit :=
  if minIvLen ≤ len ∧ len ≤ maxIvLen then .ok ()
  else .error (.invalidInput
    "a TLS backend produced an initialisation vector outside the length the QUIC library can handle")

def ivPair (rx tx : ℕ) : Except Error Unit := do
  ivLen rx
  ivLen tx
  if rx ≠ tx then
    .error (.invalidInput
      "a TLS backend produced initialisation vectors of different lengths for the two directions")
  else .ok ()

def secretLen (len expected : ℕ) : Except Error Unit :=
  if len ≠ expected then
    .error (.invalidInput
      "a TLS backend produced a traffic secret of the wrong length for the negotiated cipher suite")
  else .ok ()

/-! ## Keys -/

inductive Level | initial | zeroRtt | handshake | oneRtt
  deriving DecidableEq, Repr

inductive Direction | read | write
  deriving DecidableEq, Repr

structure DirectionalKeys (κ η : Type) where
  packet : κ
  header : η
  iv : Bytes

structure InitialKeys (κ η : Type) where
  rx : DirectionalKeys κ η
  tx : DirectionalKeys κ η

structure RotatedKeys (κ : Type) where
  rxPacket : κ
  rxIv : Bytes
  rxSecret : Bytes
  txPacket : κ
  txIv : Bytes
  txSecret : Bytes

/-- Keys of early data are one, whichever direction they are offered as. -/
def installSlot : Level → Direction → Fin 7
  | .zeroRtt, _ => 6
  | .initial, .read => 0
  | .initial, .write => 1
  | .handshake, .read => 2
  | .handshake, .write => 3
  | .oneRtt, .read => 4
  | .oneRtt, .write => 5

/-! ## The library below -/

structure Generation where
  secret : Bytes
  iv : Bytes
  deriving DecidableEq, Repr

/-- What a call of `update_key` lends: how long the two current secrets are, and the length for both. -/
structure Lent where
  rx : ℕ
  tx : ℕ
  len : ℕ
  deriving DecidableEq, Repr

/-- What a key update has copied, and how long the buffers for it are. -/
structure Copied where
  rxSecret : ℕ
  txSecret : ℕ
  secret : ℕ
  rxIv : ℕ
  txIv : ℕ
  iv : ℕ
  deriving DecidableEq, Repr

/-- At the time transport parameters are produced: whether those of the peer were taken, and whether the handshake write
key is installed. -/
structure Produced where
  peer : Bool
  writeKey : Bool
  deriving DecidableEq, Repr

/-- A vector is handed over with a length. -/
structure Conn (κ η : Type) where
  server : Bool
  remoteParams : Bool := false
  produced : List Produced := []
  installs : List (Fin 7) := []
  ivs : List (Bytes × ℕ) := []
  rx : Option Generation := none
  tx : Option Generation := none
  lent : List Lent := []
  copied : List Copied := []
  boxed : List (κ ⊕ η) := []
  owned : List ℕ := []
  reclaimed : List ℕ := []

namespace Conn

/-- `box_packet_key` and `box_header_key`; a handle is the place among the keys that were boxed. -/
def box (conn : Conn κ η) (keys : List (κ ⊕ η)) : List ℕ × Conn κ η :=
  (List.range' conn.boxed.length keys.length, { conn with boxed := conn.boxed ++ keys })

def own (conn : Conn κ η) (handles : List ℕ) : Conn κ η := { conn with owned := conn.owned ++ handles }

def reclaim (conn : Conn κ η) (handles : List ℕ) : Conn κ η := { conn with reclaimed := conn.reclaimed ++ handles }

/-- What the library has of keys that it installed. -/
def install (conn : Conn κ η) (level : Level) (direction : Direction) (generation : Generation) : Conn κ η :=
  let conn := { conn with installs := conn.installs ++ [installSlot level direction] }
  match level, direction with
  | .oneRtt, .read => { conn with rx := some generation }
  | .oneRtt, .write => { conn with tx := some generation }
  | _, _ => conn

end Conn

/-! ## The bridge -/

def callbackFailure : ℤ := -502

def invalidArgument : ℤ := -201

structure Exchange where
  peerTaken : Bool := false
  localYielded : Bool := false
  handshakeTxInstalled : Bool := false
  onerttRxIvLen : Option ℕ := none
  onerttTxIvLen : Option ℕ := none
  installed : Fin 7 → Bool := fun _ => false

structure World (κ η : Type) where
  exchange : Exchange := {}
  conn : Conn κ η

inductive Outcome
  | done
  | params (bytes : Bytes)
  | refused (error : Error)
  | failed
  deriving DecidableEq, Repr

/-- What `ngtcp2_conn_encode_local_transport_params` answers. -/
inductive Encoding
  | written (params : Bytes)
  | noBuffer
  | failed
  deriving DecidableEq, Repr

def encodeLocalParams (small large : Encoding) : Except Error Bytes :=
  match small with
  | .written params => .ok params
  | .failed => .error (.backend "the local transport parameters could not be encoded")
  | .noBuffer =>
    match large with
    | .written params => .ok params
    | _ => .error (.backend "the local transport parameters could not be encoded")

/-- `install_level`; the first component is what it returns. -/
def installLevel (conn : Conn κ η) (level : Level) (direction : Direction) (keys : DirectionalKeys κ η) (secret : Bytes)
    (native : ℤ) : ℤ × Conn κ η :=
  match ivLen keys.iv.length with
  | .error _ => (callbackFailure, conn)
  | .ok () =>
    let (handles, conn) := conn.box [.inl keys.packet, .inr keys.header]
    let (rv, conn) := if level = .initial then (invalidArgument, conn)
      else (native, { conn with ivs := conn.ivs ++ [(keys.iv, keys.iv.length)] })
    if rv ≠ 0 then (callbackFailure, conn.reclaim handles)
    else (0, (conn.own handles).install level direction ⟨secret, keys.iv⟩)

/-- `install_initial`; the vectors are handed over at the length of the one for receiving. -/
def installInitial (conn : Conn κ η) (keys : InitialKeys κ η) (native : ℤ) : Bool × Conn κ η :=
  match ivPair keys.rx.iv.length keys.tx.iv.length with
  | .error _ => (false, conn)
  | .ok () =>
    let (handles, conn) := conn.box [.inl keys.rx.packet, .inr keys.rx.header, .inl keys.tx.packet, .inr keys.tx.header]
    let conn := { conn with
      ivs := conn.ivs ++ [(keys.rx.iv, keys.rx.iv.length), (keys.tx.iv, keys.rx.iv.length)] }
    if native ≠ 0 then (false, conn.reclaim handles) else (true, conn.own handles)

namespace World

def setPeerTransportParams (w : World κ η) (native : ℤ) : Outcome × World κ η :=
  if w.exchange.peerTaken then (.refused (.backend "the peer's transport parameters were offered twice"), w)
  else if native ≠ 0 then (.refused (.native native "the peer's transport parameters were rejected"), w)
  else (.done, ⟨{ w.exchange with peerTaken := true }, { w.conn with remoteParams := true }⟩)

def localTransportParams (w : World κ η) (small large : Encoding) : Outcome × World κ η :=
  if ¬ w.exchange.peerTaken then
    (.refused (.backend "this endpoint's transport parameters were asked for before the peer's arrived"), w)
  else if w.conn.server ∧ ¬ w.exchange.handshakeTxInstalled then
    (.refused (.backend ("a server's transport parameters were asked for before its handshake write key was installed, " ++
      "and would have been incomplete")), w)
  else match encodeLocalParams small large with
    | .error error => (.refused error, w)
    | .ok params =>
      let produced : Produced := ⟨w.conn.remoteParams, installSlot .handshake .write ∈ w.conn.installs⟩
      (.params params, ⟨{ w.exchange with localYielded := true }, { w.conn with produced := w.conn.produced ++ [produced] }⟩)

/-- What `install_keys` asks of the length of a vector. -/
def checkIv (w : World κ η) (level : Level) (direction : Direction) (len : ℕ) : Except Error Unit :=
  if level = .oneRtt then
    match (match direction with | .read => w.exchange.onerttTxIvLen | .write => w.exchange.onerttRxIvLen) with
    | some other => ivPair len other
    | none => ivLen len
  else .ok ()

/-- What `install_keys` keeps of keys that were installed. -/
def recorded (exchange : Exchange) (level : Level) (direction : Direction) (len : ℕ) : Exchange :=
  { exchange with
    installed := Function.update exchange.installed (installSlot level direction) true
    handshakeTxInstalled := exchange.handshakeTxInstalled || (level = .handshake ∧ direction = .write)
    onerttRxIvLen := if level = .oneRtt ∧ direction = .read then some len else exchange.onerttRxIvLen
    onerttTxIvLen := if level = .oneRtt ∧ direction = .write then some len else exchange.onerttTxIvLen }

def installKeys (w : World κ η) (level : Level) (direction : Direction) (keys : DirectionalKeys κ η) (secret : Bytes)
    (native : ℤ) : Outcome × World κ η :=
  if w.exchange.installed (installSlot level direction) then
    (.refused (.backend "a TLS backend installed keys twice for the same level and direction"), w)
  else match w.checkIv level direction keys.iv.length with
    | .error error => (.refused error, w)
    | .ok () =>
      let (rv, conn) := installLevel w.conn level direction keys secret native
      if rv ≠ 0 then (.refused (.native rv "the key could not be installed"), { w with conn })
      else (.done, ⟨recorded w.exchange level direction keys.iv.length, conn⟩)

def submitHandshake (w : World κ η) (native : ℤ) : Outcome × World κ η :=
  if native ≠ 0 then (.refused (.native native "handshake data could not be submitted"), w) else (.done, w)

/-- The keys of `client_initial`, `recv_client_initial`, `recv_retry` and `version_negotiation`. -/
def initialKeys (w : World κ η) (keys : Option (InitialKeys κ η)) (native : ℤ) : Outcome × World κ η :=
  match keys with
  | none => (.failed, w)
  | some keys =>
    let (installed, conn) := installInitial w.conn keys native
    (if installed then .done else .failed, { w with conn })

/-- The key with which `client_initial` has a Retry checked. -/
def retryKey (w : World κ η) (key : Option κ) : Outcome × World κ η :=
  match key with
  | none => (.failed, w)
  | some key =>
    let (handles, conn) := w.conn.box [.inl key]
    (.done, { w with conn := conn.own handles })

/-- The event of `drain` that the handshake is complete. -/
def handshakeComplete (w : World κ η) : Outcome × World κ η := if w.exchange.peerTaken then (.done, w) else (.failed, w)

/-- What `update_key` asks of the next keys. -/
def checkRotated (w : World κ η) (next : RotatedKeys κ) (len : ℕ) : Bool :=
  (ivPair next.rxIv.length next.txIv.length).isOk ∧ next.rxIv.length = w.exchange.onerttRxIvLen.getD 0 ∧
    (secretLen next.rxSecret.length len).isOk ∧ (secretLen next.txSecret.length len).isOk

/-- `update_key`, which is not called before both directions have their keys. -/
def updateKey (w : World κ η) (next : Option (RotatedKeys κ)) : Outcome × World κ η :=
  match w.conn.rx, w.conn.tx with
  | some rx, some tx =>
    let len := rx.secret.length
    let lent : Lent := ⟨rx.secret.length, tx.secret.length, len⟩
    let w := { w with conn := { w.conn with lent := w.conn.lent ++ [lent] } }
    match next with
    | none => (.failed, w)
    | some next =>
      if w.checkRotated next len then
        let (handles, conn) := w.conn.box [.inl next.rxPacket, .inl next.txPacket]
        let copied : Copied := ⟨next.rxSecret.length, next.txSecret.length, len, next.rxIv.length, next.txIv.length,
          rx.iv.length⟩
        let conn := { conn with
          ivs := conn.ivs ++ [(next.rxIv, rx.iv.length), (next.txIv, rx.iv.length)]
          copied := conn.copied ++ [copied]
          rx := some ⟨next.rxSecret, next.rxIv⟩
          tx := some ⟨next.txSecret, next.txIv⟩ }
        (.done, { w with conn := conn.own handles })
      else (.failed, w)
  | _, _ => (.done, w)

end World

/-! ## Runs -/

inductive Event (κ η : Type)
  | setPeerTransportParams (native : ℤ)
  | localTransportParams (small large : Encoding)
  | installKeys (level : Level) (direction : Direction) (keys : DirectionalKeys κ η) (secret : Bytes) (native : ℤ)
  | submitHandshake (native : ℤ)
  | initialKeys (keys : Option (InitialKeys κ η)) (native : ℤ)
  | retryKey (key : Option κ)
  | handshakeComplete
  | updateKey (next : Option (RotatedKeys κ))

def World.step (w : World κ η) : Event κ η → Outcome × World κ η
  | .setPeerTransportParams native => w.setPeerTransportParams native
  | .localTransportParams small large => w.localTransportParams small large
  | .installKeys level direction keys secret native => w.installKeys level direction keys secret native
  | .submitHandshake native => w.submitHandshake native
  | .initialKeys keys native => w.initialKeys keys native
  | .retryKey key => w.retryKey key
  | .handshakeComplete => w.handshakeComplete
  | .updateKey next => w.updateKey next

def after (server : Bool) (events : List (Event κ η)) : World κ η :=
  events.foldl (fun w event => (w.step event).2) { conn := { server } }

variable {server : Bool}

@[simp] theorem after_nil : after server ([] : List (Event κ η)) = { conn := { server } } := rfl

@[simp] theorem after_concat {events : List (Event κ η)} {event : Event κ η} :
    after server (events ++ [event]) = ((after server events).step event).2 := by
  simp [after]

/-- What the library below relies on. -/
structure Safe (w : World κ η) : Prop where
  once : w.conn.installs.Nodup
  ivs : ∀ iv ∈ w.conn.ivs, iv.1.length = iv.2 ∧ 8 ≤ iv.2 ∧ iv.2 ≤ 64
  directions : ∀ rx tx, w.conn.rx = some rx → w.conn.tx = some tx → rx.iv.length = tx.iv.length
  lent : ∀ lent ∈ w.conn.lent, lent.rx = lent.len ∧ lent.tx = lent.len
  copied : ∀ copied ∈ w.conn.copied, copied.rxSecret = copied.secret ∧ copied.txSecret = copied.secret ∧
    copied.rxIv = copied.iv ∧ copied.txIv = copied.iv
  boxes : (w.conn.owned ++ w.conn.reclaimed).Perm (List.range w.conn.boxed.length)
  produced : ∀ produced ∈ w.conn.produced, produced.peer = true ∧ (w.conn.server = true → produced.writeKey = true)

/-- Keys for an application direction have a secret as long as that of the other direction, if it has one. -/
def World.Even (w : World κ η) : Event κ η → Prop
  | .installKeys .oneRtt .read _ secret _ => ∀ tx, w.conn.tx = some tx → secret.length = tx.secret.length
  | .installKeys .oneRtt .write _ secret _ => ∀ rx, w.conn.rx = some rx → secret.length = rx.secret.length
  | _ => True

def Even (server : Bool) (events : List (Event κ η)) : Prop :=
  AtEach (fun before event => (after server before).Even event) events


/-! ## Lengths that pass -/

variable {len : ℕ}

theorem ivLen_ok : ivLen len = .ok () ↔ 8 ≤ len ∧ len ≤ 64 := by
  unfold ivLen minIvLen maxIvLen
  split_ifs with h <;> simp [h]

theorem ivPair_ok {rx tx : ℕ} : ivPair rx tx = .ok () ↔ (8 ≤ rx ∧ rx ≤ 64) ∧ rx = tx := by
  constructor
  · intro h
    unfold ivPair at h
    cases hrx : ivLen rx with
    | error error => simp [hrx, bind, Except.bind] at h
    | ok _ =>
      cases htx : ivLen tx with
      | error error => simp [hrx, htx, bind, Except.bind] at h
      | ok _ =>
        refine ⟨ivLen_ok.1 hrx, ?_⟩
        by_contra hne
        simp [hrx, htx, hne, bind, Except.bind] at h
  · rintro ⟨hlen, rfl⟩
    simp [ivPair, ivLen_ok.2 hlen, bind, Except.bind]

theorem secretLen_ok {expected : ℕ} : secretLen len expected = .ok () ↔ len = expected := by
  unfold secretLen
  split_ifs with h <;> simp_all

theorem isOk_iff {checked : Except Error Unit} : checked.isOk = true ↔ checked = .ok () := by
  cases checked <;> simp [Except.isOk, Except.toBool]

/-! ## The keys that were boxed -/

theorem perm_own {owned reclaimed : List ℕ} {n : ℕ} (h : (owned ++ reclaimed).Perm (List.range n)) (m : ℕ) :
    (owned ++ List.range' n m ++ reclaimed).Perm (List.range (n + m)) := by
  have hrange : List.range (n + m) = List.range n ++ List.range' n m := by
    rw [List.range_eq_range', List.range_eq_range', ← List.range'_append]
    simp
  rw [hrange, List.append_assoc]
  refine (List.perm_append_comm.append_left owned).trans ?_
  rw [← List.append_assoc]
  exact h.append_right _

theorem perm_reclaim {owned reclaimed : List ℕ} {n : ℕ} (h : (owned ++ reclaimed).Perm (List.range n)) (m : ℕ) :
    (owned ++ (reclaimed ++ List.range' n m)).Perm (List.range (n + m)) := by
  refine List.Perm.trans ?_ (perm_own h m)
  rw [List.append_assoc]
  exact List.perm_append_comm.append_left owned

/-! ## What holds in every run -/

/-- What the library has from the bridge, whatever the secrets, and what the bridge remembers of it. -/
structure World.Sound (w : World κ η) : Prop where
  once : w.conn.installs.Nodup
  ivs : ∀ iv ∈ w.conn.ivs, iv.1.length = iv.2 ∧ 8 ≤ iv.2 ∧ iv.2 ≤ 64
  directions : ∀ rx tx, w.conn.rx = some rx → w.conn.tx = some tx → rx.iv.length = tx.iv.length
  copied : ∀ copied ∈ w.conn.copied, copied.rxSecret = copied.secret ∧ copied.txSecret = copied.secret ∧
    copied.rxIv = copied.iv ∧ copied.txIv = copied.iv
  boxes : (w.conn.owned ++ w.conn.reclaimed).Perm (List.range w.conn.boxed.length)
  produced : ∀ produced ∈ w.conn.produced, produced.peer = true ∧ (w.conn.server = true → produced.writeKey = true)
  peer : w.exchange.peerTaken = true → w.conn.remoteParams = true
  slots : ∀ slot, w.exchange.installed slot = true ↔ slot ∈ w.conn.installs
  writeKey : w.exchange.handshakeTxInstalled = true → installSlot .handshake .write ∈ w.conn.installs
  rxIvLen : w.exchange.onerttRxIvLen = w.conn.rx.map (·.iv.length)
  txIvLen : w.exchange.onerttTxIvLen = w.conn.tx.map (·.iv.length)

theorem sound_after_nil : (after server ([] : List (Event κ η))).Sound where
  once := List.nodup_nil
  ivs := by simp
  directions := by simp
  copied := by simp
  boxes := by simp
  produced := by simp
  peer := by simp
  slots := by simp
  writeKey := by simp
  rxIvLen := rfl
  txIvLen := rfl

variable {w : World κ η}

theorem World.Sound.setPeerTransportParams (sound : w.Sound) (native : ℤ) :
    (w.setPeerTransportParams native).2.Sound := by
  unfold World.setPeerTransportParams
  split_ifs
  · exact sound
  · exact sound
  · exact { sound with peer := fun _ => rfl }

theorem World.Sound.localTransportParams (sound : w.Sound) (small large : Encoding) :
    (w.localTransportParams small large).2.Sound := by
  unfold World.localTransportParams
  split_ifs with hpeer hserver
  · exact sound
  · cases encodeLocalParams small large with
    | error error => exact sound
    | ok params =>
      refine { sound with produced := ?_ }
      intro produced hmem
      rcases List.mem_append.1 hmem with hmem | hmem
      · exact sound.produced produced hmem
      · obtain rfl := List.mem_singleton.1 hmem
        constructor
        · exact sound.peer hpeer
        · intro hs
          have hkey : w.exchange.handshakeTxInstalled = true := by
            by_contra hnot
            exact hserver ⟨hs, hnot⟩
          exact decide_eq_true (sound.writeKey hkey)
  · exact sound

theorem World.Sound.reclaimed (sound : w.Sound) (keys : List (κ ⊕ η)) {ivs : List (Bytes × ℕ)}
    (hivs : ∀ iv ∈ ivs, iv.1.length = iv.2 ∧ 8 ≤ iv.2 ∧ iv.2 ≤ 64) :
    World.Sound { w with conn := { w.conn with
      boxed := w.conn.boxed ++ keys
      ivs := w.conn.ivs ++ ivs
      reclaimed := w.conn.reclaimed ++ List.range' w.conn.boxed.length keys.length } } := by
  refine { sound with ivs := ?_, boxes := ?_ }
  · intro iv hmem
    rcases List.mem_append.1 hmem with hmem | hmem
    · exact sound.ivs iv hmem
    · exact hivs iv hmem
  · simpa using perm_reclaim sound.boxes keys.length

theorem World.Sound.owned (sound : w.Sound) (keys : List (κ ⊕ η)) {ivs : List (Bytes × ℕ)}
    (hivs : ∀ iv ∈ ivs, iv.1.length = iv.2 ∧ 8 ≤ iv.2 ∧ iv.2 ≤ 64) :
    World.Sound { w with conn := { w.conn with
      boxed := w.conn.boxed ++ keys
      ivs := w.conn.ivs ++ ivs
      owned := w.conn.owned ++ List.range' w.conn.boxed.length keys.length } } := by
  refine { sound with ivs := ?_, boxes := ?_ }
  · intro iv hmem
    rcases List.mem_append.1 hmem with hmem | hmem
    · exact sound.ivs iv hmem
    · exact hivs iv hmem
  · simpa using perm_own sound.boxes keys.length

/-! ### Installing keys -/

namespace Conn

variable {conn : Conn κ η} {level : Level} {direction : Direction} {generation : Generation}

@[simp] theorem install_installs :
    (conn.install level direction generation).installs = conn.installs ++ [installSlot level direction] := by
  cases level <;> cases direction <;> rfl

@[simp] theorem install_rx : (conn.install level direction generation).rx =
    if level = .oneRtt ∧ direction = .read then some generation else conn.rx := by
  cases level <;> cases direction <;> rfl

@[simp] theorem install_tx : (conn.install level direction generation).tx =
    if level = .oneRtt ∧ direction = .write then some generation else conn.tx := by
  cases level <;> cases direction <;> rfl

theorem install_eq : conn.install level direction generation = { conn with
    installs := (conn.install level direction generation).installs
    rx := (conn.install level direction generation).rx
    tx := (conn.install level direction generation).tx } := by
  cases level <;> cases direction <;> rfl

end Conn

variable {conn : Conn κ η} {level : Level} {direction : Direction} {keys : DirectionalKeys κ η} {secret : Bytes}
  {native : ℤ}

theorem installLevel_refused (h : (installLevel conn level direction keys secret native).1 ≠ 0) :
    ∃ (boxed : List (κ ⊕ η)) (ivs : List (Bytes × ℕ)), (∀ iv ∈ ivs, iv.1.length = iv.2 ∧ 8 ≤ iv.2 ∧ iv.2 ≤ 64) ∧
      (installLevel conn level direction keys secret native).2 = { conn with
        boxed := conn.boxed ++ boxed
        ivs := conn.ivs ++ ivs
        reclaimed := conn.reclaimed ++ List.range' conn.boxed.length boxed.length } := by
  unfold installLevel at h ⊢
  cases hiv : ivLen keys.iv.length with
  | error error => exact ⟨[], [], by simp, by simp⟩
  | ok _ =>
    simp only [hiv] at h ⊢
    by_cases hlevel : level = .initial
    · exact ⟨[.inl keys.packet, .inr keys.header], [], by simp,
        by simp [hlevel, invalidArgument, Conn.box, Conn.reclaim]⟩
    · by_cases hnative : native = 0
      · simp [hlevel, hnative] at h
      · refine ⟨[.inl keys.packet, .inr keys.header], [(keys.iv, keys.iv.length)], ?_,
          by simp [hlevel, hnative, Conn.box, Conn.reclaim]⟩
        simpa using ivLen_ok.1 hiv

theorem installLevel_done (h : (installLevel conn level direction keys secret native).1 = 0) :
    (8 ≤ keys.iv.length ∧ keys.iv.length ≤ 64) ∧
      (installLevel conn level direction keys secret native).2 = Conn.install { conn with
        boxed := conn.boxed ++ [.inl keys.packet, .inr keys.header]
        ivs := conn.ivs ++ [(keys.iv, keys.iv.length)]
        owned := conn.owned ++ List.range' conn.boxed.length 2 } level direction ⟨secret, keys.iv⟩ := by
  unfold installLevel at h ⊢
  cases hiv : ivLen keys.iv.length with
  | error error => simp [hiv, callbackFailure] at h
  | ok _ =>
    refine ⟨ivLen_ok.1 hiv, ?_⟩
    simp only [hiv] at h ⊢
    by_cases hlevel : level = .initial
    · simp [hlevel, invalidArgument, callbackFailure] at h
    · by_cases hnative : native = 0
      · simp [hlevel, hnative, Conn.box, Conn.own]
      · simp [hlevel, hnative, callbackFailure] at h

theorem World.checkIv_read (h : w.checkIv .oneRtt .read len = .ok ()) {other : ℕ}
    (hother : w.exchange.onerttTxIvLen = some other) : len = other := by
  simp only [World.checkIv, hother, if_true] at h
  exact (ivPair_ok.1 h).2

theorem World.checkIv_write (h : w.checkIv .oneRtt .write len = .ok ()) {other : ℕ}
    (hother : w.exchange.onerttRxIvLen = some other) : len = other := by
  simp only [World.checkIv, hother, if_true] at h
  exact (ivPair_ok.1 h).2

theorem World.Sound.install (sound : w.Sound) (hslot : w.exchange.installed (installSlot level direction) = false)
    {iv : Bytes} (hiv : w.checkIv level direction iv.length = .ok ()) :
    World.Sound ⟨World.recorded w.exchange level direction iv.length, w.conn.install level direction ⟨secret, iv⟩⟩ := by
  have hfresh : installSlot level direction ∉ w.conn.installs := by
    intro hmem
    simp [(sound.slots _).2 hmem] at hslot
  have hdirections : ∀ rx tx, (w.conn.install level direction ⟨secret, iv⟩).rx = some rx →
      (w.conn.install level direction ⟨secret, iv⟩).tx = some tx → rx.iv.length = tx.iv.length := by
    intro rx tx hrx htx
    rw [Conn.install_rx] at hrx
    rw [Conn.install_tx] at htx
    split_ifs at hrx htx with hread hwrite hwrite
    · exact absurd (hread.2.symm.trans hwrite.2) (by decide)
    · obtain ⟨rfl, rfl⟩ := hread
      obtain rfl := Option.some.inj hrx
      exact World.checkIv_read hiv (by rw [sound.txIvLen, htx]; rfl)
    · obtain ⟨rfl, rfl⟩ := hwrite
      obtain rfl := Option.some.inj htx
      exact (World.checkIv_write hiv (by rw [sound.rxIvLen, hrx]; rfl)).symm
    · exact sound.directions rx tx hrx htx
  have hslots : ∀ slot, (World.recorded w.exchange level direction iv.length).installed slot = true ↔
      slot ∈ (w.conn.install level direction ⟨secret, iv⟩).installs := by
    intro slot
    rw [Conn.install_installs, List.mem_append, List.mem_singleton, ← sound.slots slot]
    simp only [World.recorded, Function.update_apply]
    split_ifs with heq <;> simp [heq]
  have hkey : (World.recorded w.exchange level direction iv.length).handshakeTxInstalled = true →
      installSlot .handshake .write ∈ (w.conn.install level direction ⟨secret, iv⟩).installs := by
    intro hrec
    rw [Conn.install_installs, List.mem_append, List.mem_singleton]
    simp only [World.recorded, Bool.or_eq_true, decide_eq_true_eq] at hrec
    rcases hrec with hrec | ⟨rfl, rfl⟩
    · exact .inl (sound.writeKey hrec)
    · exact .inr rfl
  have honce : (w.conn.install level direction ⟨secret, iv⟩).installs.Nodup := by
    rw [Conn.install_installs]
    exact List.Nodup.append sound.once (List.nodup_singleton _) (List.disjoint_singleton.2 hfresh)
  rw [Conn.install_eq] at hdirections hslots hkey honce ⊢
  refine { sound with
    once := honce, directions := hdirections, slots := hslots, writeKey := hkey, rxIvLen := ?_, txIvLen := ?_ }
  · simp only [World.recorded, Conn.install_rx, sound.rxIvLen]
    split_ifs <;> rfl
  · simp only [World.recorded, Conn.install_tx, sound.txIvLen]
    split_ifs <;> rfl

theorem World.Sound.installKeys (sound : w.Sound) (level : Level) (direction : Direction) (keys : DirectionalKeys κ η)
    (secret : Bytes) (native : ℤ) : (w.installKeys level direction keys secret native).2.Sound := by
  unfold World.installKeys
  split_ifs with hslot
  · exact sound
  · cases hcheck : w.checkIv level direction keys.iv.length with
    | error error => exact sound
    | ok _ =>
      by_cases hrv : (installLevel w.conn level direction keys secret native).1 = 0
      · obtain ⟨hlen, hconn⟩ := installLevel_done hrv
        have hivs : ∀ iv ∈ [(keys.iv, keys.iv.length)], iv.1.length = iv.2 ∧ 8 ≤ iv.2 ∧ iv.2 ≤ 64 := by
          simpa using hlen
        have howned := sound.owned [.inl keys.packet, .inr keys.header] hivs
        simp only [hrv, ne_eq, not_true_eq_false, if_false, hconn]
        exact howned.install (by simpa using hslot) hcheck
      · obtain ⟨boxed, ivs, hivs, hconn⟩ := installLevel_refused hrv
        simp only [ne_eq, hrv, not_false_eq_true, if_true, hconn]
        exact sound.reclaimed boxed hivs

/-! ### The other calls -/

theorem World.Sound.initialKeys (sound : w.Sound) (keys : Option (InitialKeys κ η)) (native : ℤ) :
    (w.initialKeys keys native).2.Sound := by
  cases keys with
  | none => exact sound
  | some keys =>
    unfold World.initialKeys installInitial
    cases hpair : ivPair keys.rx.iv.length keys.tx.iv.length with
    | error error =>
      simp only [hpair]
      exact sound
    | ok _ =>
      obtain ⟨hlen, heq⟩ := ivPair_ok.1 hpair
      have hivs : ∀ iv ∈ [(keys.rx.iv, keys.rx.iv.length), (keys.tx.iv, keys.rx.iv.length)],
          iv.1.length = iv.2 ∧ 8 ≤ iv.2 ∧ iv.2 ≤ 64 := by
        simp [hlen, heq.symm]
      by_cases hnative : native = 0
      · simp only [hpair, hnative, ne_eq, not_true_eq_false, if_false]
        exact sound.owned _ hivs
      · simp only [hpair, hnative, ne_eq, not_false_eq_true, if_true]
        exact sound.reclaimed _ hivs

theorem World.Sound.retryKey (sound : w.Sound) (key : Option κ) : (w.retryKey key).2.Sound := by
  cases key with
  | none => exact sound
  | some key =>
    have hivs : ∀ iv ∈ ([] : List (Bytes × ℕ)), iv.1.length = iv.2 ∧ 8 ≤ iv.2 ∧ iv.2 ≤ 64 := by simp
    have howned := sound.owned [(.inl key : κ ⊕ η)] hivs
    simp only [List.append_nil] at howned
    exact howned

theorem World.Sound.lent (sound : w.Sound) (lent : List Lent) :
    World.Sound { w with conn := { w.conn with lent := lent } } := { sound with }

theorem World.checkRotated_iff {next : RotatedKeys κ} : w.checkRotated next len = true ↔
    ((8 ≤ next.rxIv.length ∧ next.rxIv.length ≤ 64) ∧ next.rxIv.length = next.txIv.length) ∧
      next.rxIv.length = w.exchange.onerttRxIvLen.getD 0 ∧ next.rxSecret.length = len ∧ next.txSecret.length = len := by
  simp only [World.checkRotated, decide_eq_true_eq, isOk_iff, ivPair_ok, secretLen_ok]

theorem World.Sound.rotated (sound : w.Sound) {rx tx : Generation} (hrx : w.conn.rx = some rx)
    (htx : w.conn.tx = some tx) {next : RotatedKeys κ} (h : w.checkRotated next len = true) :
    World.Sound { w with conn := { w.conn with
      boxed := w.conn.boxed ++ [.inl next.rxPacket, .inl next.txPacket]
      ivs := w.conn.ivs ++ [(next.rxIv, rx.iv.length), (next.txIv, rx.iv.length)]
      owned := w.conn.owned ++ List.range' w.conn.boxed.length 2
      copied := w.conn.copied ++ [⟨next.rxSecret.length, next.txSecret.length, len, next.rxIv.length, next.txIv.length,
        rx.iv.length⟩]
      rx := some ⟨next.rxSecret, next.rxIv⟩
      tx := some ⟨next.txSecret, next.txIv⟩ } } := by
  obtain ⟨⟨hbounds, hpair⟩, hiv, hrxSecret, htxSecret⟩ := World.checkRotated_iff.1 h
  rw [sound.rxIvLen, hrx] at hiv
  have hiv : next.rxIv.length = rx.iv.length := hiv
  have hivs : ∀ iv ∈ [(next.rxIv, rx.iv.length), (next.txIv, rx.iv.length)],
      iv.1.length = iv.2 ∧ 8 ≤ iv.2 ∧ iv.2 ≤ 64 := by
    simp only [List.forall_mem_cons, List.not_mem_nil, false_implies, implies_true, and_true]
    omega
  have howned := sound.owned [.inl next.rxPacket, .inl next.txPacket] hivs
  have htxIv : tx.iv.length = next.txIv.length := by
    rw [← sound.directions rx tx hrx htx, ← hpair, hiv]
  refine { howned with directions := ?_, copied := ?_, rxIvLen := ?_, txIvLen := ?_ }
  · rintro _ _ ⟨rfl⟩ ⟨rfl⟩
    exact hpair
  · intro copied hmem
    rcases List.mem_append.1 hmem with hmem | hmem
    · exact sound.copied copied hmem
    · obtain rfl := List.mem_singleton.1 hmem
      exact ⟨hrxSecret, htxSecret, hiv, hpair ▸ hiv⟩
  · rw [show w.exchange.onerttRxIvLen = _ from sound.rxIvLen, hrx]
    exact congrArg some hiv.symm
  · rw [show w.exchange.onerttTxIvLen = _ from sound.txIvLen, htx]
    exact congrArg some htxIv

theorem World.Sound.updateKey (sound : w.Sound) (next : Option (RotatedKeys κ)) : (w.updateKey next).2.Sound := by
  unfold World.updateKey
  cases hrx : w.conn.rx with
  | none => exact sound
  | some rx =>
    cases htx : w.conn.tx with
    | none => exact sound
    | some tx =>
      cases next with
      | none => exact sound.lent _
      | some next =>
        simp only
        split_ifs with hchecked
        · exact (sound.rotated hrx htx hchecked).lent _
        · exact sound.lent _

theorem World.Sound.step (sound : w.Sound) (event : Event κ η) : (w.step event).2.Sound := by
  cases event with
  | setPeerTransportParams native => exact sound.setPeerTransportParams native
  | localTransportParams small large => exact sound.localTransportParams small large
  | installKeys level direction keys secret native => exact sound.installKeys level direction keys secret native
  | submitHandshake native =>
    simp only [World.step, World.submitHandshake]
    split_ifs <;> exact sound
  | initialKeys keys native => exact sound.initialKeys keys native
  | retryKey key => exact sound.retryKey key
  | handshakeComplete =>
    simp only [World.step, World.handshakeComplete]
    split_ifs <;> exact sound
  | updateKey next => exact sound.updateKey next

theorem sound_after (server : Bool) (events : List (Event κ η)) : (after server events).Sound := by
  induction events using List.reverseRecOn with
  | nil => exact sound_after_nil
  | append_singleton events event ih =>
    rw [after_concat]
    exact ih.step event

/-! ## Secrets

Only the secrets of the two application directions have no length that the bridge keeps.
-/

/-- Both directions have secrets of one length, and had at every key update. -/
structure World.EvenSecrets (w : World κ η) : Prop where
  now : ∀ rx tx, w.conn.rx = some rx → w.conn.tx = some tx → rx.secret.length = tx.secret.length
  lent : ∀ lent ∈ w.conn.lent, lent.rx = lent.len ∧ lent.tx = lent.len

theorem World.EvenSecrets.of_eq {u : World κ η} (even : w.EvenSecrets) (hrx : u.conn.rx = w.conn.rx)
    (htx : u.conn.tx = w.conn.tx) (hlent : u.conn.lent = w.conn.lent) : u.EvenSecrets where
  now := by
    rw [hrx, htx]
    exact even.now
  lent := by
    rw [hlent]
    exact even.lent

theorem World.installKeys_secrets (w : World κ η) (level : Level) (direction : Direction) (keys : DirectionalKeys κ η)
    (secret : Bytes) (native : ℤ) :
    let u := (w.installKeys level direction keys secret native).2
    u.conn.lent = w.conn.lent ∧
      ((u.conn.rx = w.conn.rx ∧ u.conn.tx = w.conn.tx) ∨
        (level = .oneRtt ∧ direction = .read ∧ u.conn.rx = some ⟨secret, keys.iv⟩ ∧ u.conn.tx = w.conn.tx) ∨
        (level = .oneRtt ∧ direction = .write ∧ u.conn.rx = w.conn.rx ∧ u.conn.tx = some ⟨secret, keys.iv⟩)) := by
  unfold World.installKeys
  split_ifs with hslot
  · simp
  · cases hcheck : w.checkIv level direction keys.iv.length with
    | error error => simp
    | ok _ =>
      by_cases hrv : (installLevel w.conn level direction keys secret native).1 = 0
      · obtain ⟨-, hconn⟩ := installLevel_done hrv
        simp only [hrv, ne_eq, not_true_eq_false, if_false, hconn]
        refine ⟨by rw [Conn.install_eq], ?_⟩
        cases level <;> cases direction <;> simp
      · obtain ⟨boxed, ivs, -, hconn⟩ := installLevel_refused hrv
        simp [hrv, hconn]

theorem World.EvenSecrets.installKeys (even : w.EvenSecrets)
    (h : w.Even (.installKeys level direction keys secret native)) :
    (w.installKeys level direction keys secret native).2.EvenSecrets := by
  obtain ⟨hlent, ⟨hrx, htx⟩ | ⟨rfl, rfl, hrx, htx⟩ | ⟨rfl, rfl, hrx, htx⟩⟩ :=
    w.installKeys_secrets level direction keys secret native
  · exact even.of_eq hrx htx hlent
  · constructor
    · rw [hrx, htx]
      rintro _ tx ⟨rfl⟩ htx
      exact h tx htx
    · rw [hlent]
      exact even.lent
  · constructor
    · rw [hrx, htx]
      rintro rx _ hrx ⟨rfl⟩
      exact (h rx hrx).symm
    · rw [hlent]
      exact even.lent

theorem World.EvenSecrets.lend (even : w.EvenSecrets) {rx tx : Generation} (hrx : w.conn.rx = some rx)
    (htx : w.conn.tx = some tx) :
    ∀ lent ∈ w.conn.lent ++ [⟨rx.secret.length, tx.secret.length, rx.secret.length⟩],
      lent.rx = lent.len ∧ lent.tx = lent.len := by
  intro lent hmem
  rcases List.mem_append.1 hmem with hmem | hmem
  · exact even.lent lent hmem
  · obtain rfl := List.mem_singleton.1 hmem
    exact ⟨rfl, (even.now rx tx hrx htx).symm⟩

theorem World.EvenSecrets.updateKey (even : w.EvenSecrets) (next : Option (RotatedKeys κ)) :
    (w.updateKey next).2.EvenSecrets := by
  unfold World.updateKey
  cases hrx : w.conn.rx with
  | none => exact even
  | some rx =>
    cases htx : w.conn.tx with
    | none => exact even
    | some tx =>
      have hlend := even.lend hrx htx
      have hunchanged : World.EvenSecrets { w with conn := { w.conn with
          lent := w.conn.lent ++ [⟨rx.secret.length, tx.secret.length, rx.secret.length⟩] } } :=
        ⟨even.now, hlend⟩
      cases next with
      | none => exact hunchanged
      | some next =>
        simp only
        split_ifs with hchecked
        · obtain ⟨-, -, hrxSecret, htxSecret⟩ := World.checkRotated_iff.1 hchecked
          refine ⟨?_, hlend⟩
          rintro _ _ ⟨rfl⟩ ⟨rfl⟩
          exact hrxSecret.trans htxSecret.symm
        · exact hunchanged

theorem World.EvenSecrets.step (even : w.EvenSecrets) {event : Event κ η} (h : w.Even event) :
    (w.step event).2.EvenSecrets := by
  cases event with
  | setPeerTransportParams native =>
    simp only [World.step, World.setPeerTransportParams]
    split_ifs <;> exact even.of_eq rfl rfl rfl
  | localTransportParams small large =>
    simp only [World.step, World.localTransportParams]
    split_ifs
    · exact even
    · cases encodeLocalParams small large <;> exact even.of_eq rfl rfl rfl
    · exact even
  | installKeys level direction keys secret native => exact even.installKeys h
  | submitHandshake native =>
    simp only [World.step, World.submitHandshake]
    split_ifs <;> exact even
  | initialKeys keys native =>
    cases keys with
    | none => exact even
    | some keys =>
      simp only [World.step, World.initialKeys, installInitial]
      cases ivPair keys.rx.iv.length keys.tx.iv.length with
      | error error => exact even.of_eq rfl rfl rfl
      | ok _ =>
        simp only
        split_ifs <;> exact even.of_eq rfl rfl rfl
  | retryKey key =>
    cases key <;> exact even.of_eq rfl rfl rfl
  | handshakeComplete =>
    simp only [World.step, World.handshakeComplete]
    split_ifs <;> exact even
  | updateKey next => exact even.updateKey next

theorem evenSecrets_after {events : List (Event κ η)} (heven : Even server events) :
    (after server events).EvenSecrets := by
  induction events using List.reverseRecOn with
  | nil => exact ⟨by simp, by simp⟩
  | append_singleton events event ih =>
    obtain ⟨hbefore, hevent⟩ := atEach_concat.1 heven
    rw [after_concat]
    exact (ih hbefore).step hevent

/-! ## Refusals -/

theorem World.step_refused (w : World κ η) (event : Event κ η)
    (h : (w.step event).1 = .failed ∨ ∃ error, (w.step event).1 = .refused error) :
    (w.step event).2.exchange = w.exchange ∧ (w.step event).2.conn.installs = w.conn.installs ∧
      (w.step event).2.conn.owned = w.conn.owned := by
  cases event with
  | setPeerTransportParams native =>
    simp only [World.step, World.setPeerTransportParams] at h ⊢
    split_ifs at h ⊢ <;> simp_all
  | localTransportParams small large =>
    simp only [World.step, World.localTransportParams] at h ⊢
    split_ifs at h ⊢
    · simp
    · cases hencode : encodeLocalParams small large <;> simp_all
    · simp
  | installKeys level direction keys secret native =>
    simp only [World.step, World.installKeys] at h ⊢
    by_cases hslot : w.exchange.installed (installSlot level direction) = true
    · simp [hslot]
    · simp only [hslot] at h ⊢
      cases hcheck : w.checkIv level direction keys.iv.length with
      | error error => simp
      | ok _ =>
        by_cases hrv : (installLevel w.conn level direction keys secret native).1 = 0
        · simp [hcheck, hrv] at h
        · obtain ⟨boxed, ivs, -, hconn⟩ := installLevel_refused hrv
          simp [hrv, hconn]
  | submitHandshake native =>
    simp only [World.step, World.submitHandshake] at h ⊢
    split_ifs <;> simp
  | initialKeys keys native =>
    cases keys with
    | none => simp [World.step, World.initialKeys]
    | some keys =>
      simp only [World.step, World.initialKeys, installInitial] at h ⊢
      cases hpair : ivPair keys.rx.iv.length keys.tx.iv.length with
      | error error => simp
      | ok _ =>
        by_cases hnative : native = 0
        · simp [hpair, hnative] at h
        · simp [hnative, Conn.reclaim, Conn.box]
  | retryKey key =>
    cases key with
    | none => simp [World.step, World.retryKey]
    | some key => simp [World.step, World.retryKey] at h
  | handshakeComplete =>
    simp only [World.step, World.handshakeComplete] at h ⊢
    split_ifs <;> simp
  | updateKey next =>
    simp only [World.step, World.updateKey] at h ⊢
    cases hrx : w.conn.rx with
    | none => simp
    | some rx =>
      cases htx : w.conn.tx with
      | none => simp
      | some tx =>
        cases next with
        | none => simp
        | some next =>
          simp only [hrx, htx] at h ⊢
          split_ifs at h ⊢
          · simp at h
          · simp

/-! ## Buffers -/

/-- However a backend uses what it is lent, the library's buffers are safe if the secrets of the two application
directions have one length, and whatever is refused leaves no trace. -/
theorem safe_of_even (server : Bool) (events : List (Event κ η)) (heven : Even server events) :
    Safe (after server events) ∧
      ∀ event, ((after server events).step event).1 = .failed ∨
          (∃ error, ((after server events).step event).1 = .refused error) →
        ((after server events).step event).2.exchange = (after server events).exchange ∧
          ((after server events).step event).2.conn.installs = (after server events).conn.installs ∧
          ((after server events).step event).2.conn.owned = (after server events).conn.owned := by
  constructor
  · have sound := sound_after server events
    have even := evenSecrets_after heven
    exact { sound with lent := even.lent }
  · intro event h
    exact (after server events).step_refused event h

/-- Keys of the application data with a secret, for a connection with keys that are of no interest. -/
def keysOf (direction : Direction) (secretLen : ℕ) : Event Unit Unit :=
  .installKeys .oneRtt direction ⟨(), (), List.replicate 12 0⟩ (List.replicate secretLen 0) 0

def rotation (secretLen : ℕ) : Event Unit Unit :=
  .updateKey (some ⟨(), List.replicate 12 1, List.replicate secretLen 1, (), List.replicate 12 1,
    List.replicate secretLen 1⟩)

theorem safe_of_even_rotation : Safe (after true [keysOf .read 32, keysOf .write 32, rotation 32]) := by
  apply (safe_of_even true _ _).1
  rw [show [keysOf .read 32, keysOf .write 32, rotation 32] =
    [] ++ [keysOf .read 32] ++ [keysOf .write 32] ++ [rotation 32] from rfl]
  refine atEach_concat.2 ⟨atEach_concat.2 ⟨atEach_concat.2 ⟨atEach_nil, ?_⟩, ?_⟩, trivial⟩
  · rintro tx ⟨⟩
  · rintro rx ⟨rfl⟩
    rfl

/-- The length of the receive secret stands for both. -/
theorem unevenSecrets_unsafe :
    ¬ ∀ (server : Bool) (events : List (Event Unit Unit)), Safe (after server events) := by
  intro hall
  have hlent := (hall true [keysOf .read 48, keysOf .write 32, rotation 48]).lent ⟨48, 32, 48⟩ (by decide)
  exact absurd hlent.2 (by decide)

end Ngnet.TlsBridge
