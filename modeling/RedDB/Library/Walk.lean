import Mathlib

namespace RedDB.Library

open Relation

variable {α : Type*} {next : α → Option α} {start a b : α}

def Link (next : α → Option α) (a b : α) : Prop := next a = some b

/-- The walk along the links from `start` never comes back to a place it has left. -/
def Straight (next : α → Option α) (start : α) : Prop :=
  ∀ a, ReflTransGen (Link next) start a → ¬ TransGen (Link next) a a

namespace Straight

theorem step (straight : Straight next a) (linked : Link next a b) : Straight next b := fun c reached =>
  straight c (reached.head linked)

theorem not_reached (straight : Straight next a) (linked : Link next a b) : ¬ ReflTransGen (Link next) b a :=
  fun back => straight a .refl (TransGen.head' linked back)

theorem of_rank (rank : α → Nat) (down : ∀ a b, Link next a b → rank b < rank a) (start : α) :
    Straight next start := by
  have lower {a b : α} (reached : TransGen (Link next) a b) : rank b < rank a := by
    induction reached with
    | single linked => exact down _ _ linked
    | tail _ linked ih => exact (down _ _ linked).trans ih
  exact fun a _ back => lt_irrefl _ (lower back)

theorem finite_reached (finite : {a | next a ≠ none}.Finite) :
    {a | ReflTransGen (Link next) start a}.Finite := by
  have targets : {b | ∃ a, next a = some b}.Finite := by
    have image := finite.biUnion (t := fun a => {b | next a = some b}) fun a _ =>
      Set.Subsingleton.finite fun b first c second => Option.some.inj (first.symm.trans second)
    refine image.subset fun b ⟨a, linked⟩ => ?_
    simp only [Set.mem_iUnion]
    exact ⟨a, by simp [linked], linked⟩
  refine (targets.insert start).subset fun a reached => ?_
  rcases ReflTransGen.cases_tail reached with rfl | ⟨c, -, linked⟩
  · exact Set.mem_insert _ _
  · exact Set.mem_insert_of_mem _ ⟨c, linked⟩

theorem acc (straight : Straight next start) (finite : {a | next a ≠ none}.Finite) :
    Acc (fun b a => Link next a b) start := by
  have reached : Finite {a // ReflTransGen (Link next) start a} := finite_reached finite
  let later (b a : {a // ReflTransGen (Link next) start a}) : Prop := TransGen (Link next) a.1 b.1
  have trans : IsTrans _ later := ⟨fun _ _ _ first second => second.trans first⟩
  have irrefl : Std.Irrefl later := ⟨fun a => straight a.1 a.2⟩
  have wellFounded : WellFounded later := Finite.wellFounded_of_trans_of_irrefl later
  have lift (a : {a // ReflTransGen (Link next) start a}) : Acc (fun b a => Link next a b) a.1 := by
    induction a using wellFounded.induction with
    | _ a ih =>
      exact ⟨a.1, fun b linked => ih ⟨b, a.2.tail linked⟩ (TransGen.single linked)⟩
  exact lift ⟨start, .refl⟩

theorem induction {motive : α → Prop} (finite : {a | next a ≠ none}.Finite) (straight : Straight next start)
    (step : ∀ a, Straight next a → (∀ b, Link next a b → motive b) → motive a) : motive start := by
  have accessible := straight.acc finite
  induction accessible with
  | intro a _ ih => exact step a straight fun b linked => ih b linked (straight.step linked)

end Straight

theorem exists_link_of_not_straight (looped : ¬ Straight next a) : ∃ b, Link next a b ∧ ¬ Straight next b := by
  simp only [Straight, not_forall, not_not] at looped
  obtain ⟨c, reached, back⟩ := looped
  rcases ReflTransGen.cases_head reached with rfl | ⟨b, linked, onward⟩
  · obtain ⟨b, linked, onward⟩ := TransGen.head'_iff.mp back
    exact ⟨b, linked, fun straight => straight a onward back⟩
  · exact ⟨b, linked, fun straight => straight c onward back⟩

end RedDB.Library
