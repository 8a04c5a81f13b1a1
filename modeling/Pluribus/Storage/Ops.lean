import Pluribus.Lib.Pool
import Pluribus.Storage.Model

namespace Pluribus.Storage

open Lib Pluribus.Core

inductive StoreOp where
  | append (request : AppendRequest)
  | get (eventId : EventId)
  | read (stream : StreamId) (afterSequence limit : Nat)
  | query (stream : StreamId) (query : EventQuery) (limit : Nat)
deriving DecidableEq, Repr

namespace StoreOp

@[reducible]
def Value : StoreOp → Type
  | append _ => CommittedEvent
  | get _ => Option CommittedEvent
  | read _ _ _ => List CommittedEvent
  | query _ _ _ => List CommittedEvent

abbrev Res (op : StoreOp) := Except AppendError op.Value

def Yields : (op : StoreOp) → Store → op.Value → Store → Prop
  | append request, store, event, store' =>
    ∃ eventId recordedAtMs, store.append eventId recordedAtMs request = .ok (event, store')
  | get eventId, store, found, store' => found = store.log.get eventId ∧ store' = store
  | read stream afterSequence limit, store, page, store' =>
    page = store.log.read stream afterSequence limit ∧ store' = store
  | query stream q limit, store, page, store' =>
    (∃ search, page = store.log.query search stream q limit) ∧ store' = store

def Answers (op : StoreOp) (store : Store) (r : op.Res) (store' : Store) : Prop :=
  match r with
  | .ok value => op.Yields store value store'
  | .error _ => store' = store

theorem Answers.unchanged_or_append {op : StoreOp} {store store' : Store} {r : op.Res}
    (h : op.Answers store r store') :
    store' = store ∨ ∃ request eventId recordedAtMs event, op = .append request ∧
      store.append eventId recordedAtMs request = .ok (event, store') := by
  cases r with
  | error e => exact .inl h
  | ok value =>
    cases op with
    | append request =>
      obtain ⟨eventId, recordedAtMs, happend⟩ := h
      exact .inr ⟨request, eventId, recordedAtMs, value, rfl, happend⟩
    | _ => exact .inl h.2

theorem Answers.reaches {op : StoreOp} {store store' : Store} {r : op.Res} (h : op.Answers store r store') :
    Relation.ReflTransGen Store.Step store store' := by
  obtain rfl | ⟨_, _, _, _, -, happend⟩ := h.unchanged_or_append
  · exact .refl
  · exact .single (.append happend)

def serveAppend (request : AppendRequest) (store : Store) : Except AppendError CommittedEvent × Store :=
  match store.append ("event-" ++ (store.log.events.length + 1).repr) 0 request with
  | .ok (event, store') => (.ok event, store')
  | .error error => (.error error, store)

/-- A store that never fails and names its events by their number. -/
def serve : (op : StoreOp) → Store → op.Res × Store
  | append request, store => serveAppend request store
  | get eventId, store => (.ok (store.log.get eventId), store)
  | read stream afterSequence limit, store => (.ok (store.log.read stream afterSequence limit), store)
  | query stream q limit, store => (.ok (store.log.query (fun _ => none) stream q limit), store)

theorem serve_answers (op : StoreOp) (store : Store) : op.Answers store (serve op store).1 (serve op store).2 := by
  cases op with
  | append request =>
    change (append request).Answers store (serveAppend request store).1 (serveAppend request store).2
    unfold serveAppend
    split
    · rename_i event store' h
      exact ⟨_, _, h⟩
    · rfl
  | get eventId | read stream afterSequence limit => exact ⟨rfl, rfl⟩
  | query stream q limit => exact ⟨⟨_, rfl⟩, rfl⟩

end StoreOp

abbrev StoreM (ε : Type) := ExceptT ε (Prog StoreOp StoreOp.Res)

def StoreM.ask {ε : Type} (failed : AppendError → ε) (op : StoreOp) : StoreM ε op.Value :=
  ExceptT.mk do
    match ← Prog.perform op with
    | .ok value => pure (.ok value)
    | .error error => pure (.error (failed error))

theorem StoreM.ask_ensures {W ε : Type} {c : Contract StoreOp StoreOp.Res W} {failed : AppendError → ε}
    {op : StoreOp} {post : op.Value → W → Prop} {w : W}
    (h : ∀ w', c.interferes w w' → c.good w' → c.demands op w' ∧
      ∀ value w'', c.answers op w' (.ok value) w'' → c.good w'' →
        ∀ u, c.interferes w'' u → c.good u → post value u) :
    c.EnsuresOk (StoreM.ask failed op) post w := by
  intro w' hw' hgood
  obtain ⟨hdemand, hnext⟩ := h w' hw' hgood
  refine ⟨hdemand, fun r w'' hr hgood' => ?_⟩
  cases r with
  | error e =>
    intro u _ _ a ha
    cases ha
  | ok value =>
    intro u hu hgood'' a ha
    cases ha
    exact hnext value w'' hr hgood' u hu hgood''

/-- Any writers, appending and committing between any two calls. -/
def anyWriters : Contract StoreOp StoreOp.Res Store where
  good _ := True
  interferes := Relation.ReflTransGen Store.Step
  demands _ _ := True
  answers := StoreOp.Answers
  interferes_refl _ := .refl
  interferes_trans := .trans

end Pluribus.Storage
