import Realmroot.AuthorizationDetails
import Realmroot.Library.Matching

/-!
# Approved details against requested ones

`authorizationDetailsMatchRequest` is the greedy choice of a matching. A requested detail that is a
template may take a concrete detail that a later one needs.
-/

namespace Realmroot

open Matching

section Matching

variable [Platform]

/-- An approved detail meets a requested one. -/
def meetsRequirement (requirement candidate : AuthorizationDetail) : Bool :=
  canonicalDetail candidate = canonicalDetail requirement ||
    authorizationDetailMatchesTemplate candidate requirement

/-- Some pairing of all approved details with all requested ones. -/
def DetailsMatch (approved requested : List AuthorizationDetail) : Prop :=
  Perfect (meetsRequirement · ·) requested approved

/-- No two details have the same text. -/
def DistinctDetails (details : List AuthorizationDetail) : Prop :=
  (details.map canonicalDetail).Nodup

/-- The answer says whether the details can be paired. -/
def MatchDecided (approved requested : List AuthorizationDetail) : Prop :=
  authorizationDetailsMatchRequest approved requested = true ↔ DetailsMatch approved requested

/-- The choices that the requested details make, one after the other, spare what later ones need. -/
def ChoicesSpare (approved requested : List AuthorizationDetail) : Prop :=
  Spares meetsRequirement requested approved

theorem matchRequirements_eq (requested remaining : List AuthorizationDetail) :
    matchRequirements requested remaining = takeFirst meetsRequirement requested remaining := by
  induction requested generalizing remaining with
  | nil => rfl
  | cons requirement requested ih =>
    rw [matchRequirements, takeFirst, ih]
    rfl

theorem authorizationDetailsMatchRequest_eq {approved requested : List AuthorizationDetail}
    (happroved : DistinctDetails approved) :
    authorizationDetailsMatchRequest approved requested = true ↔
      requested.length = approved.length ∧
        takeFirst meetsRequirement requested approved = true := by
  have hdistinct : hasDuplicateAuthorizationDetails approved = false := by
    have hnodup : (approved.map canonicalDetail).Nodup := happroved
    simp [hasDuplicateAuthorizationDetails, hnodup]
  have hlength : approved.length = requested.length ↔ requested.length = approved.length := eq_comm
  simp [authorizationDetailsMatchRequest, hdistinct, matchRequirements_eq, hlength]

theorem matchDecided_iff {approved requested : List AuthorizationDetail}
    (happroved : DistinctDetails approved) :
    MatchDecided approved requested ↔ ChoicesSpare approved requested := by
  by_cases hlength : requested.length = approved.length
  · rw [MatchDecided, authorizationDetailsMatchRequest_eq happroved]
    simp only [hlength, true_and]
    exact decides_iff hlength
  · -- lists of different lengths are not matched, and there is nothing to spare
    have hnone : ¬ DetailsMatch approved requested := fun h => hlength h.length_eq
    have hanswer : ¬ authorizationDetailsMatchRequest approved requested = true := fun h =>
      hlength ((authorizationDetailsMatchRequest_eq happroved).mp h).1
    have hspares : ChoicesSpare approved requested := by
      cases requested with
      | nil => trivial
      | cons requirement requested => exact fun h => absurd h hnone
    exact ⟨fun _ => hspares, fun _ => ⟨fun h => absurd h hanswer, fun h => absurd h hnone⟩⟩

/-- The order of the details does not matter to whether they can be paired. -/
theorem detailsMatch_perm {approved approved' requested requested' : List AuthorizationDetail}
    (happroved : approved'.Perm approved) (hrequested : requested'.Perm requested) :
    DetailsMatch approved' requested' ↔ DetailsMatch approved requested :=
  perfect_perm hrequested happroved.symm

end Matching

namespace MatchingExample

attribute [local instance] samplePlatform

/-- Any detail of the type. -/
def template : AuthorizationDetail := [("type", .str "repository")]

def repository (id : String) : AuthorizationDetail :=
  [("type", .str "repository"), ("id", .str id)]

end MatchingExample

end Realmroot
