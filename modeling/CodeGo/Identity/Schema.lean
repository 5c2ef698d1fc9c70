import CodeGo.Lib.Table

/-!
# Users and tokens

The rows of `internal/identity/schema` with the quota columns. Rows that are
soft-deleted are not in the tables.
-/

namespace CodeGo.Identity.Schema

open Lib

/-- The two quota columns of a user. -/
inductive Wallet where
  | wallet | claudeWallet
  deriving DecidableEq, Repr

structure User where
  id : Int
  quota : Int := 0
  claudeQuota : Int := 0
  deriving DecidableEq, Repr

structure Token where
  id : Int
  key : String
  remainQuota : Int := 0
  usedQuota : Int := 0
  unlimitedQuota : Bool := false
  deriving DecidableEq, Repr

instance : Indexed User Int where
  pk := User.id
  clash u v := u.id = v.id
  clash_comm u v := by simp only [eq_comm]
  clash_of_pk u v h := by simp [h]

instance : Indexed Token Int where
  pk := Token.id
  clash t s := t.id = s.id ∨ t.key = s.key
  clash_comm t s := by simp only [eq_comm]
  clash_of_pk t s h := by simp [h]

def User.column : Wallet → User → Int
  | .wallet, u => u.quota
  | .claudeWallet, u => u.claudeQuota

/-- `quota + ?` on one of the columns. -/
def User.add (w : Wallet) (amount : Int) (u : User) : User :=
  match w with
  | .wallet => { u with quota := u.quota + amount }
  | .claudeWallet => { u with claudeQuota := u.claudeQuota + amount }

theorem keepsIndexes_userAdd (w : Wallet) (amount : Int) :
    Table.KeepsIndexes (User.add w amount) := by
  intro u
  cases w <;> exact ⟨rfl, fun _ => rfl⟩

theorem column_add (w w' : Wallet) (amount : Int) (u : User) :
    (u.add w amount).column w' = u.column w' + if w' = w then amount else 0 := by
  cases w <;> cases w' <;> simp [User.add, User.column]

end CodeGo.Identity.Schema
