import BucketBench.Command.World
import BucketBench.Proofs.Outcome

set_option autoImplicit false

namespace BucketBench

def StoreCall.isQuestion : StoreCall → Bool
  | .find _ | .count _ | .distinct _ _ => true
  | .updateMany _ _ | .insertOne _ => false

namespace Server

variable {s : Server} {call : StoreCall}

theorem perform_of_isQuestion (question : call.isQuestion = true) : (s.perform call).2 = s := by
  cases call with
  | find | count | distinct => rfl
  | updateMany | insertOne => cases question

theorem perform_of_error {e : Error} (h : (s.perform call).1 = .error e) : (s.perform call).2 = s := by
  cases call with
  | find | count | distinct => rfl
  | updateMany filter update =>
    rw [perform] at h ⊢
    generalize s.updateMany filter update = r at h ⊢
    cases r with
    | ok => cases h
    | error => rfl
  | insertOne d =>
    rw [perform] at h ⊢
    generalize s.insertOne d = r at h ⊢
    cases r with
    | ok => cases h
    | error => rfl

end Server

namespace Failure

variable {α : Type} {context : String} {r : Except Error α}

theorem within_eq_ok_iff {a : α} : within context r = .ok a ↔ r = .ok a := mapError_eq_ok_iff

theorem exists_of_within {failure : Failure} (h : within context r = .error failure) : ∃ e, r = .error e := by
  cases r with
  | ok => cases h
  | error e => exact ⟨e, rfl⟩

end Failure

namespace Session

variable {α β : Type} {s : Session α} {f : α → Session β}

theorem run_bind (s : Session α) (f : α → Session β) (db : Database) :
    (s >>= f).run db =
      match s.run db with
      | (.ok a, db) => (f a).run db
      | (.error failure, db) => (.error failure, db) := by
  have chain := BucketBench.run_bind s f db
  rcases first : s.run db with ⟨outcome, middle⟩
  rw [show ExceptT.run s db = (outcome, middle) from first] at chain
  cases outcome <;> exact chain

theorem run_lift (r : Except Failure α) (db : Database) : (lift r).run db = (r, db) := rfl

theorem run_request (context : String) (call : StoreCall) (db : Database) :
    (request context call).run db =
      (Failure.within context (db.server.perform call).1, { db with server := (db.server.perform call).2 }) := rfl

theorem perform_of_run_request {context : String} {call : StoreCall} {answer : StoreAnswer} {db after : Database}
    (h : (request context call).run db = (.ok answer, after)) : db.server.perform call = (.ok answer, after.server) := by
  obtain ⟨answered, rfl⟩ := Prod.mk.inj h
  exact Prod.ext (Failure.within_eq_ok_iff.1 answered) rfl

theorem exists_of_run_bind {b : β} {db after : Database} (h : (s >>= f).run db = (.ok b, after)) :
    ∃ a middle, s.run db = (.ok a, middle) ∧ (f a).run middle = (.ok b, after) := by
  rw [run_bind] at h
  split at h
  · exact ⟨_, _, ‹_›, h⟩
  · cases h

theorem run_dial (context uri : String) (db : Database) :
    (dial context uri).run db =
      match Connection.dial uri with
      | .error e => (.error ⟨[context], .fault e⟩, { db with calls := db.calls ++ [uri] })
      | .ok login =>
        if db.admits login then (.ok (), { db with calls := db.calls ++ [uri] })
        else (.error ⟨[context], .fault Server.refused⟩, { db with calls := db.calls ++ [uri] }) := rfl

theorem calls_dial (context uri : String) (db : Database) : ((dial context uri).run db).2.calls = db.calls ++ [uri] := by
  rw [run_dial]
  split
  · rfl
  · split <;> rfl

def Keeps {γ : Type} (part : Database → γ) (s : Session α) : Prop := ∀ db, part (s.run db).2 = part db

/-- A session that fails leaves the server as before. -/
def Atomic (s : Session α) : Prop := ∀ db failure, (s.run db).1 = .error failure → (s.run db).2.server = db.server

section Keeps

variable {γ : Type} {part : Database → γ}

theorem part_bind (hf : ∀ a, (f a).Keeps part) (db : Database) :
    part ((s >>= f).run db).2 = part (s.run db).2 := by
  rw [run_bind]
  split
  · rename_i a middle h
    rw [hf a middle, h]
  · rename_i failure middle h
    rw [h]

namespace Keeps

theorem eq_of_run {outcome : Except Failure α} {db after : Database} (hs : s.Keeps part)
    (h : s.run db = (outcome, after)) : part after = part db := by
  rw [← hs db, h]

theorem lift (part : Database → γ) (r : Except Failure α) : (Session.lift r).Keeps part := fun _ => rfl

theorem pure (part : Database → γ) (a : α) : (Pure.pure a : Session α).Keeps part := fun _ => rfl

theorem bind (hs : s.Keeps part) (hf : ∀ a, (f a).Keeps part) : (s >>= f).Keeps part := fun db =>
  (part_bind hf db).trans (hs db)

theorem dial (context uri : String) : (Session.dial context uri).Keeps Database.server := by
  intro db
  rw [run_dial]
  split
  · rfl
  · split <;> rfl

theorem lift_bind {r : Except Failure α} (hf : ∀ a, r = .ok a → (f a).Keeps part) :
    (Session.lift r >>= f).Keeps part := by
  cases r with
  | error failure => exact lift part _
  | ok a => exact hf a rfl

theorem connect (context : String) (settings : DatabaseSettings) (vault : Vault) :
    (Session.connect context settings vault).Keeps Database.server :=
  (lift _ _).bind fun uri => dial context uri

theorem request (context : String) {call : StoreCall} (question : call.isQuestion = true) :
    (Session.request context call).Keeps Database.server := by
  intro db
  rw [run_request]
  exact Server.perform_of_isQuestion question

theorem atomic (hs : s.Keeps Database.server) : s.Atomic := fun db _ _ => hs db

end Keeps

end Keeps

namespace Atomic

theorem request (context : String) (call : StoreCall) : (Session.request context call).Atomic := by
  intro db failure h
  rw [run_request] at h ⊢
  obtain ⟨e, fails⟩ := Failure.exists_of_within h
  exact Server.perform_of_error fails

theorem bind (hs : s.Keeps Database.server) (hf : ∀ a, (f a).Atomic) : (s >>= f).Atomic := by
  intro db failure h
  have first := hs db
  rw [run_bind] at h ⊢
  split at h
  · rename_i a middle e
    rw [hf a middle failure h, ← first, e]
  · rename_i failed middle e
    rw [← first, e]

theorem map (hs : s.Atomic) (g : α → β) : (s >>= fun a => pure (g a)).Atomic := by
  intro db failure h
  have first := hs db
  rw [run_bind] at h ⊢
  split at h
  · cases h
  · rename_i failed middle e
    rw [← first failed (by rw [e]), e]

end Atomic

end Session

end BucketBench
