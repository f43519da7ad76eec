import Pm2Manager.SessionStore
import Pm2Manager.SessionText

/-!
# The session table as texts

The rows of the session store are written as texts, with a cookie, an encoding
of strings and texts for ids which do not matter.  The deletion by `LIKE` then
removes the rows which the store removes.
-/

namespace Pm2Manager

open JsonText (Text)
open NumberText (Number)

theorem ofNat_injective {n m : ℕ} (hn : n < 2 ^ 53) (hm : m < 2 ^ 53)
    (heq : Number.ofNat n = Number.ofNat m) : n = m := by
  have hvalue := congrArg Number.value heq
  rw [Number.value_ofNat hn, Number.value_ofNat hm] at hvalue
  exact_mod_cast hvalue

variable (encode : String → Text) (cookie : List (Text × CookieValue))
  (sidText : SessionId → Text)

def SessionUser.field (user : SessionUser) : SessionField :=
  .user (.ofNat user.id) (encode user.username) user.isAdmin

def SessionData.written (data : SessionData) : WrittenSession where
  fields := .cookie cookie :: (
    (data.csrfSecret.map fun secret => .csrfSecret (encode secret)).toList ++
    (data.user.map (SessionUser.field encode)).toList ++
    (data.pending2fa.map fun pending =>
      .pending2fa (.ofNat pending.userId) (encode pending.username)).toList ++
    (data.pendingTotpSecret.map fun secret => .pendingTotpSecret (encode secret)).toList)
  distinct := by
    obtain ⟨user, pending2fa, pendingTotpSecret, csrfSecret⟩ := data
    cases user <;> cases pending2fa <;> cases pendingTotpSecret <;> cases csrfSecret <;>
      simp [SessionUser.field, SessionField.key] <;> decide

theorem SessionData.userId_written (data : SessionData) :
    (data.written encode cookie).userId = data.userId.map Number.ofNat := by
  obtain ⟨user, pending2fa, pendingTotpSecret, csrfSecret⟩ := data
  cases user <;> cases csrfSecret <;> cases pending2fa <;> cases pendingTotpSecret <;> rfl

def SessionStore.table (store : SessionStore) : SessionTable :=
  some (storedRows (store.rows.map fun row => (sidText row.1, row.2.written encode cookie)))

/-- Ids below `2 ^ 53` are numbers of JavaScript. -/
def SessionStore.SafeIds (store : SessionStore) : Prop :=
  ∀ row ∈ store.rows, ∀ id ∈ row.2.userId, id < 2 ^ 53

theorem SessionStore.match_iff {store : SessionStore} (hsafe : store.SafeIds)
    {userId : ℕ} (hpositive : 0 < userId) (hid : userId < 2 ^ 53)
    {row : SessionId × SessionData} (hrow : row ∈ store.rows) :
    LikePattern.likeText (userPattern (.ofNat userId)) (row.2.written encode cookie).sess = true ↔
      row.2.userId = some userId := by
  have hvalue : 0 < (Number.ofNat userId).value := by
    rw [Number.value_ofNat hid]
    exact_mod_cast hpositive
  rw [match_iff_parsedUserId _ hvalue, WrittenSession.parsedUserId_eq,
    SessionData.userId_written, Option.map_map, Option.map_eq_some_iff]
  constructor
  · rintro ⟨id, huser, heq⟩
    rw [Function.comp_apply, NumberText.reread_ofNat] at heq
    rw [huser, ofNat_injective (hsafe row hrow id huser) hid heq]
  · intro huser
    exact ⟨userId, huser, NumberText.reread_of_pos hvalue⟩

/-- The deletion by `LIKE` removes the rows of the user, as many as it reports. -/
theorem SessionStore.deleteByUserId_table {store : SessionStore} (hsafe : store.SafeIds)
    {userId : ℕ} (hpositive : 0 < userId) (hid : userId < 2 ^ 53) :
    (store.table encode cookie sidText).deleteByUserId (.ofNat userId) =
      ((store.deleteByUserId userId).table encode cookie sidText,
        store.countByUserId userId) := by
  have hmatch : ∀ row ∈ store.rows,
      LikePattern.likeText (userPattern (.ofNat userId))
        (row.2.written encode cookie).sess = decide (row.2.userId = some userId) := by
    intro row hrow
    rw [Bool.eq_iff_iff, decide_eq_true_eq]
    exact match_iff encode cookie hsafe hpositive hid hrow
  have hfilter : (store.rows.filter fun row =>
      !LikePattern.likeText (userPattern (.ofNat userId)) (row.2.written encode cookie).sess) =
        store.rows.filter fun row => row.2.userId ≠ some userId :=
    List.filter_congr fun row hrow => by rw [hmatch row hrow, decide_not]
  have hcount : (store.rows.countP fun row =>
      LikePattern.likeText (userPattern (.ofNat userId)) (row.2.written encode cookie).sess) =
        store.rows.countP fun row => row.2.userId = some userId :=
    List.countP_congr fun row hrow => by rw [hmatch row hrow]
  rw [table, table, SessionTable.deleteByUserId, storedRows, storedRows, List.map_map,
    List.map_map, List.filter_map, List.countP_map, deleteByUserId, countByUserId]
  simp only [Function.comp_def]
  rw [hfilter, hcount]

end Pm2Manager
