import Mathlib.Data.Char
import Mathlib.Data.List.Lex
import Mathlib.Data.List.Nodup
import Mathlib.Data.List.Sort
import Pm2Manager.ScriptText

/-!
# The `users` table

The rows with the constraints of the schema as fields: the primary key, the
case-sensitive `UNIQUE` on `username`, and `AUTOINCREMENT`, under which an id
is never given twice.  The operations are those of `userRepository`.
-/

namespace Pm2Manager

open ScriptText

structure UserRecord where
  id : ℕ
  username : String
  passwordHash : String
  totpSecret : Option String
  totpEnabled : Bool
  isAdmin : Bool
  createdAt : String
  updatedAt : String
deriving DecidableEq, Repr

structure CreateUserData where
  username : String
  passwordHash : String
  isAdmin : Bool
deriving DecidableEq, Repr

/-- `seq` is the highest id given so far (`sqlite_sequence`). -/
structure UsersTable where
  rows : List UserRecord
  seq : ℕ
  idBound : ∀ row ∈ rows, row.id ≤ seq
  idUnique : (rows.map UserRecord.id).Nodup
  usernameUnique : (rows.map UserRecord.username).Nodup

namespace UsersTable

def empty : UsersTable where
  rows := []
  seq := 0
  idBound := by simp
  idUnique := by simp
  usernameUnique := by simp

variable (table : UsersTable)

def countAll : ℕ := table.rows.length

def findById (id : ℕ) : Option UserRecord :=
  table.rows.find? fun row => row.id = id

/-- `username = ? COLLATE NOCASE`; the scan is in the order of the ids. -/
def findByUsername (username : String) : Option UserRecord :=
  table.rows.find? fun row => foldCase row.username = foldCase username

/-- `ORDER BY username COLLATE NOCASE`. -/
def listAll : List UserRecord :=
  table.rows.insertionSort fun a b => foldCase a.username ≤ foldCase b.username

def nextId : ℕ := table.seq + 1

/-- The row an `INSERT` adds, before the constraints are checked. -/
def newRow (data : CreateUserData) (now : String) : UserRecord where
  id := table.nextId
  username := data.username
  passwordHash := data.passwordHash
  totpSecret := none
  totpEnabled := false
  isAdmin := data.isAdmin
  createdAt := now
  updatedAt := now

theorem idBound_newRow (data : CreateUserData) (now : String) :
    ∀ row ∈ table.rows ++ [table.newRow data now], row.id ≤ table.seq + 1 := by
  intro row hrow
  rcases List.mem_append.mp hrow with hold | hnew
  · exact Nat.le_trans (table.idBound row hold) (Nat.le_succ _)
  · simp only [List.mem_singleton] at hnew
    subst row
    exact Nat.le_refl _

theorem idUnique_newRow (data : CreateUserData) (now : String) :
    ((table.rows ++ [table.newRow data now]).map UserRecord.id).Nodup := by
  rw [List.map_append, List.nodup_append]
  refine ⟨table.idUnique, by simp, ?_⟩
  intro a ha b hb heq
  obtain ⟨row, hrow, rfl⟩ := List.mem_map.mp ha
  have hbound := table.idBound row hrow
  simp only [List.map_cons, List.map_nil, List.mem_singleton, newRow, nextId]
    at hb
  omega

theorem usernameUnique_newRow (data : CreateUserData) (now : String)
    (hname : data.username ∉ table.rows.map UserRecord.username) :
    ((table.rows ++ [table.newRow data now]).map UserRecord.username).Nodup := by
  rw [List.map_append, List.nodup_append]
  refine ⟨table.usernameUnique, by simp, ?_⟩
  intro a ha b hb heq
  simp only [List.map_cons, List.map_nil, List.mem_singleton, newRow] at hb
  rw [hb] at heq
  exact hname (heq ▸ ha)

/-- `INSERT INTO users`; `none` when `UNIQUE` refuses the username. -/
def create (data : CreateUserData) (now : String) : Option UsersTable :=
  if hname : data.username ∈ table.rows.map UserRecord.username then
    none
  else
    some {
      rows := table.rows ++ [table.newRow data now]
      seq := table.seq + 1
      idBound := table.idBound_newRow data now
      idUnique := table.idUnique_newRow data now
      usernameUnique := table.usernameUnique_newRow data now hname }

/-- Rewrite the row of an id, leaving the key columns alone. -/
def update (id : ℕ) (change : UserRecord → UserRecord)
    (hid : ∀ row, (change row).id = row.id)
    (hname : ∀ row, (change row).username = row.username) : UsersTable where
  rows := table.rows.map fun row => if row.id = id then change row else row
  seq := table.seq
  idBound := by
    intro row hrow
    obtain ⟨old, hold, rfl⟩ := List.mem_map.mp hrow
    have hbound := table.idBound old hold
    split
    · rw [hid]; exact hbound
    · exact hbound
  idUnique := by
    rw [List.map_map]
    refine (congrArg List.Nodup (List.map_congr_left ?_)).mpr table.idUnique
    intro row _
    simp only [Function.comp_apply]
    split <;> simp [hid]
  usernameUnique := by
    rw [List.map_map]
    refine (congrArg List.Nodup (List.map_congr_left ?_)).mpr
      table.usernameUnique
    intro row _
    simp only [Function.comp_apply]
    split <;> simp [hname]

def updatePassword (id : ℕ) (passwordHash now : String) : UsersTable :=
  table.update id
    (fun row => { row with passwordHash := passwordHash, updatedAt := now })
    (fun _ => rfl) (fun _ => rfl)

def setTotp (id : ℕ) (secret : Option String) (enabled : Bool)
    (now : String) : UsersTable :=
  table.update id
    (fun row => { row with
      totpSecret := secret, totpEnabled := enabled, updatedAt := now })
    (fun _ => rfl) (fun _ => rfl)

def delete (id : ℕ) : UsersTable where
  rows := table.rows.filter fun row => row.id ≠ id
  seq := table.seq
  idBound := fun row hrow => table.idBound row (List.mem_filter.mp hrow).1
  idUnique := table.idUnique.sublist (List.filter_sublist.map _)
  usernameUnique := table.usernameUnique.sublist (List.filter_sublist.map _)

variable {table}

theorem mem_of_findById {id : ℕ} {row : UserRecord}
    (hfind : table.findById id = some row) : row ∈ table.rows ∧ row.id = id := by
  unfold findById at hfind
  exact ⟨List.mem_of_find?_eq_some hfind, by
    simpa using List.find?_some hfind⟩

theorem mem_of_findByUsername {username : String} {row : UserRecord}
    (hfind : table.findByUsername username = some row) :
    row ∈ table.rows ∧ foldCase row.username = foldCase username := by
  unfold findByUsername at hfind
  exact ⟨List.mem_of_find?_eq_some hfind, by
    simpa using List.find?_some hfind⟩

theorem findByUsername_eq_none_iff {username : String} :
    table.findByUsername username = none ↔
      ∀ row ∈ table.rows, foldCase row.username ≠ foldCase username := by
  simp [findByUsername]

@[simp] theorem seq_delete {id : ℕ} : (table.delete id).seq = table.seq := rfl

theorem mem_rows_delete {id : ℕ} {row : UserRecord} :
    row ∈ (table.delete id).rows ↔ row ∈ table.rows ∧ row.id ≠ id := by
  simp [delete]

theorem mem_rows_update {id : ℕ} {change : UserRecord → UserRecord}
    {hid : ∀ row, (change row).id = row.id}
    {hname : ∀ row, (change row).username = row.username}
    {row : UserRecord} :
    row ∈ (table.update id change hid hname).rows ↔
      ∃ old ∈ table.rows, row = if old.id = id then change old else old := by
  simp only [update, List.mem_map, eq_comm]

theorem mem_rows_updatePassword {id : ℕ} {passwordHash now : String}
    {row : UserRecord} :
    row ∈ (table.updatePassword id passwordHash now).rows ↔
      ∃ old ∈ table.rows, row = if old.id = id then
        { old with passwordHash := passwordHash, updatedAt := now } else old :=
  mem_rows_update

theorem mem_rows_setTotp {id : ℕ} {secret : Option String} {enabled : Bool}
    {now : String} {row : UserRecord} :
    row ∈ (table.setTotp id secret enabled now).rows ↔
      ∃ old ∈ table.rows, row = if old.id = id then { old with
        totpSecret := secret, totpEnabled := enabled, updatedAt := now }
        else old :=
  mem_rows_update

theorem create_eq_some {data : CreateUserData} {now : String}
    {after : UsersTable} (hcreate : table.create data now = some after) :
    data.username ∉ table.rows.map UserRecord.username ∧
      after.rows = table.rows ++ [table.newRow data now] ∧
      after.seq = table.seq + 1 := by
  unfold create at hcreate
  split at hcreate
  · simp at hcreate
  next hname =>
    simp only [Option.some.injEq] at hcreate
    subst after
    exact ⟨hname, rfl, rfl⟩

def HasAdmin (table : UsersTable) : Prop :=
  ∃ row ∈ table.rows, row.isAdmin = true

end UsersTable

end Pm2Manager
