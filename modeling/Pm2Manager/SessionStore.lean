import Mathlib.Data.List.Nodup
import Mathlib.Data.Nat.Notation

/-!
# The session table

The rows of the SQLite session store, read as the session each one parses to,
and the copy of a session which one request works on.  The store inserts or
replaces whole rows; `deleteByUserId` is the one query of `sessionRepository`.
-/

namespace Pm2Manager

abbrev SessionId := ℕ

structure SessionUser where
  id : ℕ
  username : String
  isAdmin : Bool
deriving DecidableEq, Repr

structure PendingTwoFactor where
  userId : ℕ
  username : String
deriving DecidableEq, Repr

/-- The fields this application keeps in a session, the cookie apart. -/
structure SessionData where
  user : Option SessionUser := none
  pending2fa : Option PendingTwoFactor := none
  pendingTotpSecret : Option String := none
  csrfSecret : Option String := none
deriving DecidableEq, Repr

def SessionData.userId (data : SessionData) : Option ℕ :=
  data.user.map SessionUser.id

structure SessionStore where
  rows : List (SessionId × SessionData)
  sidUnique : (rows.map Prod.fst).Nodup

namespace SessionStore

def empty : SessionStore where
  rows := []
  sidUnique := by simp

variable (store : SessionStore)

def get (sid : SessionId) : Option SessionData :=
  (store.rows.find? fun row => row.1 = sid).map Prod.snd

def destroy (sid : SessionId) : SessionStore where
  rows := store.rows.filter fun row => row.1 ≠ sid
  sidUnique := store.sidUnique.sublist (List.filter_sublist.map _)

/-- `INSERT OR REPLACE INTO sessions`. -/
def set (sid : SessionId) (data : SessionData) : SessionStore where
  rows := (store.destroy sid).rows ++ [(sid, data)]
  sidUnique := by
    rw [List.map_append, List.nodup_append]
    refine ⟨(store.destroy sid).sidUnique, by simp, ?_⟩
    intro a ha b hb heq
    obtain ⟨row, hrow, rfl⟩ := List.mem_map.mp ha
    simp only [List.map_cons, List.map_nil, List.mem_singleton] at hb
    simp [destroy, heq, hb] at hrow

/-- The rows whose text carries `"user":{"id":N,`: those of user `N`. -/
def deleteByUserId (userId : ℕ) : SessionStore where
  rows := store.rows.filter fun row => row.2.userId ≠ some userId
  sidUnique := store.sidUnique.sublist (List.filter_sublist.map _)

/-- How many rows `deleteByUserId` removes (`result.changes`). -/
def countByUserId (userId : ℕ) : ℕ :=
  store.rows.countP fun row => row.2.userId = some userId

variable {store}

theorem mem_of_get {sid : SessionId} {data : SessionData}
    (hget : store.get sid = some data) : (sid, data) ∈ store.rows := by
  unfold get at hget
  obtain ⟨row, hfind, rfl⟩ := Option.map_eq_some_iff.mp hget
  have hsid : row.1 = sid := by simpa using List.find?_some hfind
  subst hsid
  exact List.mem_of_find?_eq_some hfind

@[simp] theorem mem_destroy {sid : SessionId} {row : SessionId × SessionData} :
    row ∈ (store.destroy sid).rows ↔ row ∈ store.rows ∧ row.1 ≠ sid := by
  simp [destroy]

@[simp] theorem mem_set {sid : SessionId} {data : SessionData}
    {row : SessionId × SessionData} :
    row ∈ (store.set sid data).rows ↔
      (row ∈ store.rows ∧ row.1 ≠ sid) ∨ row = (sid, data) := by
  simp [set]

@[simp] theorem mem_deleteByUserId {userId : ℕ}
    {row : SessionId × SessionData} :
    row ∈ (store.deleteByUserId userId).rows ↔
      row ∈ store.rows ∧ row.2.userId ≠ some userId := by
  simp [deleteByUserId]

end SessionStore

/-! ## The copy a request works on -/

/-- `req.session` with what the session middleware remembers of it: whether
the request's cookie named this id, and the content under which the row is
known to be stored (`none` once a new id has been given to the request). -/
structure RequestSession where
  sid : SessionId
  data : SessionData
  fromCookie : Bool
  baseline : Option SessionData
deriving DecidableEq, Repr

namespace RequestSession

/-- The session of a request whose cookie names a stored row. -/
def loaded (sid : SessionId) (data : SessionData) : RequestSession :=
  { sid, data, fromCookie := true, baseline := some data }

/-- The session given to a request without one; it is not stored as long as
nothing is put into it. -/
def generated (sid : SessionId) : RequestSession :=
  { sid, data := {}, fromCookie := false, baseline := some {} }

/-- The session after `req.session.regenerate`: empty, under a new id, and
certain to be stored. -/
def regenerated (sid : SessionId) : RequestSession :=
  { sid, data := {}, fromCookie := false, baseline := none }

/-- Whether the end of the response writes the session back. -/
def shouldSave (session : RequestSession) : Bool :=
  session.baseline ≠ some session.data

/-- What the middleware remembers after `req.session.save`.  Only a session
which the cookie named is then known to be stored as it is. -/
def saved (session : RequestSession) : RequestSession :=
  if session.fromCookie then
    { session with baseline := some session.data }
  else
    session

@[simp] theorem saved_sid (session : RequestSession) :
    session.saved.sid = session.sid := by
  unfold saved
  split <;> rfl

@[simp] theorem saved_data (session : RequestSession) :
    session.saved.data = session.data := by
  unfold saved
  split <;> rfl

end RequestSession

end Pm2Manager
