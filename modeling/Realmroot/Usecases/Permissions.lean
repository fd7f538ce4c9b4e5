import Realmroot.World

/-!
# Permissions

A direct grant keeps at most one equivalent entitlement: what is there is read, and then
inserted, replaced or renewed by a statement of its own. Between the read and the write the
row that was read may change.
-/

namespace Realmroot

open AtomicProgram Error

/-- What `createScopeEntitlement` does with an equivalent entitlement. An update that finds no
row answers nothing, which its caller cannot read. -/
def strengthenEntitlement (existing input : ResourceScopeEntitlement) (now : Time) :
    Request ResourceScopeEntitlement :=
  if existing.expiresAt.any (· ≤ now) then do
    execute (.replaceExpiredEntitlement existing.id input now)
    pure input
  else
    let lifetime := strongerLifetime existing input
    if lifetime.isNone && existing.authorizationContextHash = input.authorizationContextHash then
      .pure existing
    else do
      let updated ← execute (.renewEntitlement
        { id := existing.id, lifetime := lifetime
          authorizationContextHash := input.authorizationContextHash, updatedAt := now })
      orThrow (.internal "TypeError") updated

/-- `createScopeEntitlement`. -/
def createScopeEntitlement (input : ResourceScopeEntitlement) (now : Time) :
    Request ResourceScopeEntitlement := do
  let found ← query (·.findEquivalentEntitlement input)
  match found with
  | some existing => strengthenEntitlement existing input now
  | none => do
    let inserted ← execute (.insertScopeEntitlement input)
    match inserted with
    | some row => .pure row
    | none => do
      let competing ← query (·.findEquivalentEntitlement input)
      let existing ← orThrow
        (.internal "Equivalent active permission was not found after a concurrent grant.") competing
      strengthenEntitlement existing input now

/-- `endScopeEntitlement`. -/
def endScopeEntitlement (id : String) (reason : EndReason) (now : Time) : Request Bool :=
  execute (.endEntitlement id reason now)

end Realmroot
