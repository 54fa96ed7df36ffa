/-
The Kite networks and the parser of prices, which does integer math on digits.
-/
import KiteX402.Json
import KiteX402.Text

namespace KiteX402

inductive KiteError where
  | invalidPrice (price : String)
  | tooManyDecimals (price : String) (decimals : UInt32) (symbol : String)
  | belowOneUnit (price symbol : String)
deriving DecidableEq

/-- The text of an error; `debug` is how the standard library quotes a string. -/
def KiteError.message (debug : String → String) : KiteError → String
  | .invalidPrice price => "price must be a positive decimal, got " ++ debug price
  | .tooManyDecimals price decimals symbol =>
      s!"price {price} has more than {decimals} decimals ({symbol})"
  | .belowOneUnit price symbol => s!"price {price} is below one unit of {symbol}"

/-- One network to charge on, and the stablecoin settled there. -/
structure KiteChain where
  network : String
  assetAddress : String
  assetSymbol : String
  assetDecimals : UInt32
  eip712Name : String
  eip712Version : String
deriving DecidableEq

def kiteMainnet : KiteChain where
  network := "eip155:2366"
  assetAddress := "0x7aB6f3ed87C42eF0aDb67Ed95090f8bF5240149e"
  assetSymbol := "USDC.e"
  assetDecimals := 6
  eip712Name := "Bridged USDC (Kite AI)"
  eip712Version := "2"

def kiteTestnet : KiteChain where
  network := "eip155:2368"
  assetAddress := "0x38129cf4CE5E183eFF248F42A7D345Bb1B47621A"
  assetSymbol := "pieUSD"
  assetDecimals := 18
  eip712Name := "pieUSD"
  eip712Version := "1"

/-- An amount as it goes on the wire, in the smallest unit of its asset. -/
structure AssetAmount where
  asset : String
  amount : String
  extra : Value
deriving DecidableEq

/-- The loop of `is_plain_positive_decimal`: `none` when it returns early,
else whether it has seen a digit. -/
def scanDecimal (seenDot hasDigit atStart : Bool) : List Char → Option Bool
  | [] => some hasDigit
  | c :: rest =>
      if c = '.' then
        if seenDot || atStart then none else scanDecimal true hasDigit false rest
      else if c.isDigit then scanDecimal seenDot true false rest
      else none

def isPlainPositiveDecimal (text : List Char) : Bool :=
  match scanDecimal false false true text with
  | some hasDigit => hasDigit && text.getLast? != some '.'
  | none => false

/-- The price without surrounding white space and without one dollar sign. -/
def priceText (priceUsd : String) : List Char :=
  match trim priceUsd.toList with
  | '$' :: rest => rest
  | trimmed => trimmed

namespace KiteChain

def extra (chain : KiteChain) : Value :=
  .ofJson (.object [("name", .string chain.eip712Name),
    ("version", .string chain.eip712Version)])

/-- The amount that a price in USD stands for.  The length of the fraction is
truncated to 32 bits before it is compared, and `none` is the panic of a
padding that is not representable. -/
def parsePrice (chain : KiteChain) (priceUsd : String) :
    Option (Except KiteError AssetAmount) :=
  let text := priceText priceUsd
  if isPlainPositiveDecimal text then
    let whole := text.takeWhile (· ≠ '.')
    let frac := (text.dropWhile (· ≠ '.')).drop 1
    if chain.assetDecimals.toNat < frac.length % 2 ^ 32 then
      some (.error (.tooManyDecimals (String.ofList text) chain.assetDecimals
        chain.assetSymbol))
    else if chain.assetDecimals.toNat < frac.length then none
    else
      let pad := chain.assetDecimals.toNat - frac.length
      let digits := whole ++ frac ++ List.replicate pad '0'
      let units := digits.dropWhile (· = '0')
      let units := if units = [] then ['0'] else units
      if units = ['0'] then
        some (.error (.belowOneUnit priceUsd chain.assetSymbol))
      else
        some (.ok ⟨chain.assetAddress, String.ofList units, chain.extra⟩)
  else some (.error (.invalidPrice priceUsd))

theorem extra_json (chain : KiteChain) :
    chain.extra.json = .object [("name", .string chain.eip712Name),
      ("version", .string chain.eip712Version)] := by
  have hlt : "name" < "version" := by decide
  simp [extra, Value.ofJson, Json.normalize, normalizeMembers, insertMember, hlt]

theorem extra_of_parsePrice {chain : KiteChain} {priceUsd : String}
    {price : AssetAmount} (h : chain.parsePrice priceUsd = some (.ok price)) :
    price.extra = chain.extra := by
  unfold parsePrice at h
  dsimp only at h
  split at h
  · split at h
    · simp at h
    · split at h
      · contradiction
      · split at h
        · simp at h
        · split at h
          · simp at h
          · rw [← Except.ok.inj (Option.some.inj h)]
  · simp at h

end KiteChain

end KiteX402
