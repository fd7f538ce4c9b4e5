import Realmroot.Database

/-!
# The repository of site settings

A row is written under the revision that was read with it: a write that finds another revision,
or a row where none was read, changes nothing.
-/

namespace Realmroot
namespace Database

variable (key : SiteSettingsKey) (revision : Option ℕ) (value : SettingsValue)

/-- `readSiteSettings`. -/
def readSiteSettings (db : Database) : Option SiteSettings :=
  db.siteSettings.find? fun row => row.key = key

/-- `writeSiteSettings`; the answer says whether a row was written. -/
def writeSiteSettings : Statement Bool := fun db =>
  match revision with
  | none =>
    if (db.readSiteSettings value.key).isSome then .ok (false, db)
    else .ok (true, { db with
      siteSettings := db.siteSettings ++ [{ value := value, revision := 1 }] })
  | some revision =>
    let selects (row : SiteSettings) : Bool := row.key = value.key && row.revision = revision
    .ok (db.siteSettings.any selects, { db with
      siteSettings :=
        Table.updateWhere selects (fun _ => { value := value, revision := revision + 1 })
          db.siteSettings })

end Database

/-! ## Commands -/

inductive SettingsCommand where
  | write (value : SettingsValue) (revision : Option ℕ)

namespace SettingsCommand

def statement : SettingsCommand → Statement Bool
  | write value revision => Database.writeSiteSettings revision value

/-- The database after a command. -/
def after (command : SettingsCommand) : Database → Database := command.statement.after

/-- The table that a command may change. -/
theorem after_eq (command : SettingsCommand) (db : Database) :
    ∃ settings, command.after db = { db with siteSettings := settings } := by
  unfold after
  apply Statement.after_keeps (p := fun db' => ∃ settings, db' =
    { db with siteSettings := settings }) ⟨_, rfl⟩
  intro answer db' hok
  cases command with
  | write value revision =>
    cases revision with
    | none =>
      change Database.writeSiteSettings none value db = _ at hok
      unfold Database.writeSiteSettings at hok
      dsimp only at hok
      split_ifs at hok
      · cases hok
        exact ⟨_, rfl⟩
      · cases hok
        exact ⟨_, rfl⟩
    | some revision =>
      cases hok
      exact ⟨_, rfl⟩

end SettingsCommand
end Realmroot
