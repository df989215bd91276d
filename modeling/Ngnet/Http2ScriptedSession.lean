import Ngnet.Http2Passes

/-!
# A session that follows a script

A session, a transport and handlers whose answers are listed beforehand. The runs that are computed elsewhere are runs
of these.
-/

namespace Ngnet.Http2ScriptedSession
open QmuxVarints Http2Heads Http2Handles Http2Driver Http2Passes InterleavedPrograms
open Http3Heads (Http ascii)

/-- What is observed in each call of `recv` and of `send`, in order, and the streams that are there. -/
structure Script where
  next : ℕ := 1
  reads : List (List Event) := []
  sends : List Sent := []
  streams : List ℕ := []
  lastProcessed : ℕ := 0

def Script.answer : {α : Type} → SessionCall α → Script → α × Script
  | _, .submitRequest _ _, s => (.ok s.next, { s with next := s.next + 2 })
  | _, .recv _, s =>
    match s.reads with
    | observed :: reads => ((.ok (), observed), { s with reads })
    | [] => ((.ok (), []), s)
  | _, .send, s =>
    match s.sends with
    | sent :: sends => (sent, { s with sends })
    | [] => (⟨.ok false, [], []⟩, s)
  | _, .streamIsOpen stream, s => (stream ∈ s.streams, s)
  | _, .trailersReady stream, s => (stream ∈ s.streams, s)
  | _, .lastProcessedStream, s => (s.lastProcessed, s)
  | _, .wantWrite, s => (false, s)
  | _, .midFrame, s => (false, s)
  | _, .submitResponse _ _ _, s => (.ok (), s)
  | _, .submitTrailer _ _, s => (.ok (), s)
  | _, .resetStream _ _, s => (.ok (), s)
  | _, .consume _ _, s => (.ok (), s)
  | _, .shutdown _ _, s => (.ok (), s)
  | _, .resumeBody _, s => (.resumed, s)

instance : Session Script := ⟨Script.answer⟩

/-- What is written is accepted. -/
inductive Wire | wire

instance : Transport Wire where
  write io := (.ok (), io)
  commit io := (.ok (), io)

/-- Handlers that have not answered yet. -/
inductive Silent | silent

instance : Handlers Silent where
  start _ _ handlers := handlers
  poll _ handlers := (none, handlers)

/-- Of what the crate `http` would refuse, nothing occurs. -/
@[reducible] def accepting : Http where
  headerName name := some name
  headerValue _ := true
  statusCode value := some (value.foldl (fun n digit => 10 * n + (digit.toNat - 48)) 0)
  method _ := true
  authority _ := true
  pathAndQuery path := some path
  uri _ _ _ := true
  fits _ := true

attribute [local instance] accepting

def scripted (role : Role) : System Op Fault Ending (World Script Wire Silent) WorldAction := connection role 4

def startOf (role : Role) (script : Script) : World Script Wire Silent := newWorld role script .wire .silent

def getRequest : Request where
  parts := ⟨ascii "GET", ⟨none, some (ascii "a"), none⟩, []⟩
  body := ⟨0, true⟩

/-- A handle sends a request, and its call takes this many steps more. -/
def sending (id steps : ℕ) : List (Choice WorldAction) :=
  .other (.handle (.sendRequest getRequest)) :: List.replicate steps (.other (.handle (.stepFuture id)))

end Ngnet.Http2ScriptedSession
