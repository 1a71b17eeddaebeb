import Mathlib.Data.Nat.Basic

/-!
# Currency ids

`TokenSymbol` and `CurrencyId` as the primitives crate declares them, with the
conversions between a token and its vToken.
-/

namespace Bifrost

set_option autoImplicit false

inductive TokenSymbol where
  | ASG | BNC | KUSD | DOT | KSM | ETH | KAR | ZLK | PHA | RMRK | MOVR
deriving DecidableEq, Repr

inductive CurrencyId where
  | native (symbol : TokenSymbol)
  | vToken (symbol : TokenSymbol)
  | token (symbol : TokenSymbol)
  | stable (symbol : TokenSymbol)
  | vsToken (symbol : TokenSymbol)
  | vsBond (symbol : TokenSymbol) (paraId firstSlot lastSlot : UInt32)
  | lpToken (symbol0 : TokenSymbol) (type0 : UInt8) (symbol1 : TokenSymbol) (type1 : UInt8)
  | foreignAsset (id : UInt32)
  | token2 (id : UInt8)
  | vToken2 (id : UInt8)
  | vsToken2 (id : UInt8)
  | vsBond2 (id : UInt8) (paraId firstSlot lastSlot : UInt32)
  | stableLpToken (pool : UInt32)
  | blp (pool : UInt32)
  | lend (id : UInt8)
deriving DecidableEq, Repr

namespace CurrencyId

def isVtoken : CurrencyId → Bool
  | vToken _ | vToken2 _ => true
  | _ => false

/-- `to_token`; `none` stands for `CurrencyConversionError::InvalidToken`. -/
def toToken : CurrencyId → Option CurrencyId
  | vToken .BNC => some (native .BNC)
  | vToken symbol => some (token symbol)
  | vToken2 id => some (token2 id)
  | _ => none

/-- `to_vtoken`; `none` stands for `CurrencyConversionError::InvalidToken`. -/
def toVtoken : CurrencyId → Option CurrencyId
  | token symbol => some (vToken symbol)
  | token2 id => some (vToken2 id)
  | native .BNC => some (vToken .BNC)
  | _ => none

end CurrencyId

end Bifrost
