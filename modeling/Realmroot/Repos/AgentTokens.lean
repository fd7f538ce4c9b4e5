import Realmroot.Database

/-!
# The agent token repository

The identifiers of proofs that were presented. Those that have expired are deleted with the next
one that is recorded.
-/

namespace Realmroot
namespace Database

/-- The batch of `consumeJti`: a clash with an unexpired record refuses it as a whole. -/
def insertJti (row : AgentDpopJti) : Statement Unit := fun db =>
  let unexpired := db.agentDpopJtis.filter fun old => !decide (old.expiresAt < row.createdAt)
  if unexpired.any fun old => old.jtiHash = row.jtiHash then
    .error (.constraint "agent_dpop_jti.jti_hash")
  else .ok ((), { db with agentDpopJtis := unexpired ++ [row] })

variable {db db' : Database}

theorem insertJti_ok {row : AgentDpopJti} {u : Unit} (h : insertJti row db = .ok (u, db')) :
    (∀ old ∈ db.agentDpopJtis, old.jtiHash = row.jtiHash → old.expiresAt < row.createdAt) ∧
      db' = { db with
        agentDpopJtis := (db.agentDpopJtis.filter fun old =>
          !decide (old.expiresAt < row.createdAt)) ++ [row] } := by
  unfold insertJti at h
  dsimp only at h
  split_ifs at h with hclash
  cases h
  refine ⟨?_, rfl⟩
  intro old hold hsame
  by_contra hlive
  apply hclash
  rw [List.any_eq_true]
  exact ⟨old, List.mem_filter.mpr ⟨hold, by simpa using hlive⟩, by simpa using hsame⟩

/-- A record of the same identifier that has not expired stands against a proof. -/
theorem insertJti_error {row : AgentDpopJti} {e : Error} (h : insertJti row db = .error e) :
    e = .constraint "agent_dpop_jti.jti_hash" := by
  unfold insertJti at h
  dsimp only at h
  split_ifs at h
  cases h
  rfl

theorem insertJti_after (row : AgentDpopJti) (db : Database) :
    ∃ jtis, (insertJti row).after db = { db with agentDpopJtis := jtis } := by
  apply Statement.after_keeps (p := fun db' => ∃ jtis, db' = { db with agentDpopJtis := jtis })
    ⟨_, rfl⟩
  intro u db' hok
  exact ⟨_, (insertJti_ok hok).2⟩

end Database
end Realmroot
