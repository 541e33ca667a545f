import CollateralDebt.Action
import CollateralDebt.SortedMap
import CollateralDebt.Address

/-!
Surplus collateral. A trove that is liquidated in Recovery Mode although its ratio is not below the minimum loses
only the collateral that the minimum asks for; the rest stays here until its former owner claims it.
-/

namespace CollateralDebt

/-- What former owners of troves can claim. -/
structure Surplus where
  balances : SortedMap Address Amount
  /-- All balances together. -/
  total : Amount
  deriving DecidableEq

namespace Surplus

def empty : Surplus := ⟨.empty, .zero⟩

instance : Inhabited Surplus := ⟨empty⟩

def balance (s : Surplus) (owner : Address) : Amount := (s.balances.get? owner).getD .zero

/-- An amount is credited to an account; nothing is not. -/
def credit (s : Surplus) (owner : Address) (amount : Amount) : Surplus :=
  if amount.isZero then s
  else {
    balances := s.balances.insert owner ((s.balance owner).plusClamped amount)
    total := s.total.plusClamped amount }

/-- An account takes its whole balance, which may not be nothing. -/
def claim (owner : Address) : Action Surplus Amount := do
  let s ← get
  let amount := s.balance owner
  if amount.isZero then throw (.noCollateralSurplus owner.text)
  set { s with balances := s.balances.erase owner, total := s.total.minusClamped amount }
  return amount

end Surplus

end CollateralDebt
