import SwedeSweets.Lib.Fallible
import Mathlib.Data.Int.Notation

namespace SwedeSweets

/-!
# What a call reads from outside the database

Every service call runs against a `Runtime`: the clock, the calendar date, the database's
text ordering and the Unicode tables of the language.  Nothing is assumed about the
tables; a run may even change them from call to call.  `Error` lists the exceptions the
services raise, each with the data its class carries.
-/

/-- A point in time, in microseconds. -/
abbrev Time := ℕ

/-- A calendar date, as its ordinal day. -/
abbrev Date := ℕ

/-- The clock, the calendar and the text tables one call sees. -/
structure Runtime where
  /-- `timezone.now()`. -/
  now : Time
  /-- `timezone.localdate()` and `date.today()`. -/
  today : Date
  /-- The collation of the database: `textLe a b` when `a` sorts no later than `b`. -/
  textLe : String → String → Bool
  /-- `str.upper`. -/
  upper : String → String
  /-- `unicodedata.normalize("NFKD", _)`. -/
  nfkd : String → String
  /-- `unicodedata.decimal`: the digit value of a decimal character. -/
  decimal : Char → Option ℕ
  /-- The case-insensitive match of the `iexact` lookup. -/
  iexact : String → String → Bool

/-- The exceptions of the services. -/
inductive Error where
  | invalidStockOperation (message : String)
  | invalidBatchStatusTransition (message : String)
  | insufficientStockError (productName : String) (requested available missing : ℤ)
  | invalidOrderOperation (message : String)
  | invalidOrderStatusTransition (message : String)
  | invalidAllocationStatusTransition (message : String)
  | invalidReservationPlan (message : String)
  | insufficientReservationCapacity (requested available : ℤ)
  | invalidReservationPool (message : String)
  | missingReservations (message : String)
  | invalidCommercialPrice (message : String)
  | invalidRetailOrder (message : String)
  | invalidRetailCart (message : String)
  | invalidPaymentAttempt (message : String)
  | paymentReconciliationConflict (message : String)
  | invalidProductData (message : String)
  | unsupportedOrderUnit (message : String)
  | runtimeError (message : String)
  | valueError (message : String)
  | keyError
  | integrityError (constraint : String)
  | dataError (message : String)
  | transactionManagementError
  | doesNotExist (model : String)
  | multipleObjectsReturned (model : String)
  | commandError (message : String)
  | postalAreaFetchError (message : String)
  deriving DecidableEq, Repr

/-- A service that raises or returns. -/
abbrev Result (α : Type) := Except Error α

/-! ### Text functions of the language -/

namespace Text

/-- `str.isspace` on one character. -/
def isSpace (c : Char) : Bool :=
  let n := c.toNat
  (9 ≤ n && n ≤ 13) || (28 ≤ n && n ≤ 32) || n = 133 || n = 160 || n = 5760
    || (8192 ≤ n && n ≤ 8202) || n = 8232 || n = 8233 || n = 8239 || n = 8287 || n = 12288

/-- `str.strip` on characters. -/
def stripChars (cs : List Char) : List Char :=
  ((cs.dropWhile isSpace).reverse.dropWhile isSpace).reverse

/-- `str.strip`. -/
def strip (s : String) : String := String.ofList (stripChars s.toList)

/-- `str.lower`, as far as the result is compared with ASCII text: the Kelvin sign is the only
    character beyond ASCII whose lowercase is ASCII. -/
def lower (s : String) : String :=
  s.map (fun c => if c = Char.ofNat 0x212A then 'k' else c.toLower)

/-- The words of `str.split()`, with the word being read in `word`. -/
def splitChars (word : List Char) : List Char → List (List Char)
  | [] => if word = [] then [] else [word.reverse]
  | c :: cs =>
      if isSpace c then (if word = [] then splitChars [] cs else word.reverse :: splitChars [] cs)
      else splitChars (c :: word) cs

/-- `" ".join(s.split())`. -/
def collapse (s : String) : String :=
  String.intercalate " " ((splitChars [] s.toList).map String.ofList)

/-- Digits with single underscores between them, read onto `acc`; `gap` tells whether the
    last character was an underscore (or nothing was read yet). -/
def digitsOnto (decimal : Char → Option ℕ) (acc : ℕ) (gap : Bool) : List Char → Option ℕ
  | [] => if gap then none else some acc
  | c :: cs =>
      match decimal c with
      | some d => digitsOnto decimal (10 * acc + d) false cs
      | none => if c = '_' && !gap then digitsOnto decimal acc true cs else none

/-- `int(text)`; `none` when the text is not an integer literal. -/
def int (decimal : Char → Option ℕ) (s : String) : Option ℤ :=
  match stripChars s.toList with
  | '-' :: cs => (digitsOnto decimal 0 true cs).map (fun n => -(n : ℤ))
  | '+' :: cs => (digitsOnto decimal 0 true cs).map Int.ofNat
  | cs => (digitsOnto decimal 0 true cs).map Int.ofNat

/-- The decimal numeral of `n`, zero-padded to `width` characters (`f"{n:0{width}d}"` on a
    number that is not negative). -/
def padded (width n : ℕ) : String :=
  let digits := Nat.toDigits 10 n
  String.ofList (List.replicate (width - digits.length) '0' ++ digits)

/-- `f"{n:0{width}d}"`; the sign counts as one character. -/
def paddedInt (width : ℕ) (n : ℤ) : String :=
  if n < 0 then "-" ++ padded (width - 1) n.natAbs else padded width n.natAbs

end Text

end SwedeSweets
