import CodeGo.Platform.Database

/-!
# Quota columns

`internal/identity/store`: the functions that read and change the quota columns
of users and tokens.
-/

namespace CodeGo.Identity.Store

open Lib Platform.Database Identity.Schema

/-- The quota column of a user, 0 without such a row. -/
def quotaColumn (w : Wallet) (userID : Int) (s : DB) : Int :=
  ((s.users.get? userID).map (User.column w)).getD 0

def addToColumn (w : Wallet) (userID amount : Int) (s : DB) : DB :=
  { s with users := s.users.update userID _ (keepsIndexes_userAdd w amount) }

def loadQuota (w : Wallet) (userID : Int) : App Int := read (quotaColumn w userID)

theorem quotaColumn_addToColumn (w w' : Wallet) (userID userID' amount : Int) (s : DB) :
    quotaColumn w' userID' (addToColumn w userID amount s) = quotaColumn w' userID' s +
      if w' = w ∧ userID' = userID ∧ (s.users.get? userID).isSome then amount else 0 := by
  unfold quotaColumn addToColumn
  rw [Table.get?_update]
  by_cases hid : userID' = userID
  · subst hid
    cases hu : s.users.get? userID' with
    | none => simp
    | some u => simp [column_add]
  · simp [hid]

end CodeGo.Identity.Store
