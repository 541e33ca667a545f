import CollateralDebt.Action
import CollateralDebt.Amount.Estimate
import CollateralDebt.Requirement

/-!
A price feed that gives the price last set. It remembers the price before and the last hundred prices, each with
the number of its round.
-/

namespace CollateralDebt

/-- A price and the round in which it was set. -/
structure PricePoint where
  price : Amount
  /-- The number of the round, from one. -/
  round : Nat
  deriving DecidableEq, Repr

/-- A feed of prices. -/
structure PriceFeed where
  current : PricePoint
  previous : Option PricePoint
  /-- The last prices, the oldest first. -/
  history : List PricePoint
  deriving DecidableEq, Repr

namespace PriceFeed

def limit : Nat := 100

def start (price : Amount) : Except Error PriceFeed :=
  (Requirement.usablePrice price).map fun _ => ⟨⟨price, 1⟩, none, [⟨price, 1⟩]⟩

def setPrice (price : Amount) : Action PriceFeed Unit := do
  Requirement.usablePrice price
  modify fun feed =>
    let current := ⟨price, feed.current.round + 1⟩
    let history := feed.history ++ [current]
    { current, previous := some feed.current, history := history.drop (history.length - limit) }

def fetch (feed : PriceFeed) : Except Error Amount :=
  if feed.current.price.isZero then .error (.invalidPrice "no price available") else .ok feed.current.price

/-- The change from the price before to the price now, in basis points. -/
def change (feed : PriceFeed) : Int :=
  match feed.previous with
  | none => 0
  | some previous => previous.price.changeInBasisPoints feed.current.price

end PriceFeed

end CollateralDebt
