import Mathlib.Data.Nat.Log
import Mathlib.Algebra.Order.Group.Nat

/-!
# Login admission

The script that Redis runs for every login request, and the calls of `LoginProtection`.  A key
counts its requests in windows of a minute; a request beyond the limit of the key blocks it, the
longer the more strikes it has, and fifteen quiet minutes forget the strikes.

Times are milliseconds of the clock of the store.  The numbers of the script are floating point
numbers that are integers, exact below `2 ^ 53`; JSON writes them with fourteen digits.
-/

namespace SkillMind.Auth

/-- The table that a key stores. -/
structure LoginState where
  version : Nat
  start : Nat
  count : Nat
  strikes : Nat
  blocked : Nat
  last : Nat

/-- A stored text; one that is no table of natural numbers is foreign. -/
inductive StoredValue where
  | state (s : LoginState)
  | foreign

/-- A key with the last millisecond at which it is there, none when it never expires. -/
structure Entry where
  value : StoredValue
  expiresAt : Option Nat

abbrev Store (κ : Type) := κ → Option Entry

/-- The number that is read back after `n` was written with fourteen digits. -/
def jsonNumber (n : Nat) : Nat :=
  let unit := 10 ^ (Nat.log 10 n - 13)
  let (quotient, rest) := (n / unit, n % unit)
  if 2 * rest < unit ∨ (2 * rest = unit ∧ quotient % 2 = 0) then quotient * unit
  else (quotient + 1) * unit

/-- `cjson.encode` and the `cjson.decode` of a later call. -/
def LoginState.encoded (s : LoginState) : LoginState where
  version := jsonNumber s.version
  start := jsonNumber s.start
  count := jsonNumber s.count
  strikes := jsonNumber s.strikes
  blocked := jsonNumber s.blocked
  last := jsonNumber s.last

/-! ## The script -/

def window : Nat := 60000

def base : Nat := 60000

def maximum : Nat := 300000

def quiet : Nat := 900000

def lifetime : Nat := quiet + maximum + window

inductive ScriptError where
  | invalidLimitPolicy
  | invalidLimitState
  deriving DecidableEq

inductive Answer where
  | admitted
  | refused (seconds : Nat)
  | error (error : ScriptError)
  deriving DecidableEq

/-- `integer`, on a natural number. -/
def integer (value : Nat) : Bool :=
  decide (value < 9007199254740991)

/-- The checks of a stored table. -/
def LoginState.valid (s : LoginState) : Bool :=
  decide (s.version = 1) && integer s.start && integer s.count && integer s.strikes &&
    decide (s.strikes ≤ 4) && integer s.blocked && integer s.last &&
    decide (s.blocked ≤ s.last + maximum)

/-- The checks of a stored key; a key without an end has a negative `PTTL`. -/
def Entry.valid (entry : Entry) : Bool :=
  match entry.value with
  | .state s => s.valid && entry.expiresAt.isSome
  | .foreign => false

/-- What the first loop raises for one key. -/
def fault (limit : Nat) (entry : Option Entry) : Option ScriptError :=
  if limit < 1 ∨ 10000 < limit then some .invalidLimitPolicy
  else if entry.all Entry.valid = true then none else some .invalidLimitState

def fresh (now : Nat) : LoginState := ⟨1, now, 0, 0, 0, now⟩

/-- The stored table, or a fresh one when there is none or the key was quiet for long. -/
def current (now : Nat) : Option Entry → LoginState
  | some ⟨.state s, _⟩ => if quiet ≤ now - s.last then fresh now else s
  | _ => fresh now

/-- The milliseconds the key is still blocked. -/
def remaining (now : Nat) : Option Entry → Nat
  | some ⟨.state s, _⟩ => s.blocked - now
  | _ => 0

/-- A window that is over is started again. -/
def opened (now : Nat) (s : LoginState) : LoginState :=
  if window ≤ now - s.start then { s with start := now, count := 0 } else s

def delayOf (strikes : Nat) : Nat := min (base * 2 ^ (strikes - 1)) maximum

/-- The second loop for one key: the new table and the block it starts. -/
def count (now limit : Nat) (s : LoginState) : LoginState × Nat :=
  let s := { opened now s with count := (opened now s).count + 1, last := now, blocked := 0 }
  if limit < s.count then
    let strikes := min (s.strikes + 1) 4
    ({ s with strikes := strikes, blocked := now + delayOf strikes }, delayOf strikes)
  else (s, 0)

def greatest (delays : List Nat) : Nat := delays.foldr max 0

/-- `math.ceil(retry / 1000)`. -/
def inSeconds (retry : Nat) : Nat := (retry + 999) / 1000

section Script

variable {κ : Type} [DecidableEq κ]

/-- `GET`; `expiring` tells whether the store drops a key at its end. -/
def find (expiring : Bool) (store : Store κ) (now : Nat) (key : κ) : Option Entry :=
  (store key).filter fun entry => !expiring || entry.expiresAt.all fun last => decide (now ≤ last)

/-- The entry that `SET` leaves for a key. -/
def written (expiring : Bool) (limit : κ → Nat) (store : Store κ) (now : Nat) (key : κ) : Entry :=
  ⟨.state (count now (limit key) (current now (find expiring store now key))).1.encoded,
    some (now + lifetime)⟩

/-- `_RATE_SCRIPT` for the keys, each with its limit.  The limit belongs to the key, so a key that
is named twice is set twice to the same text. -/
def rateScript (expiring : Bool) (limit : κ → Nat) (store : Store κ) (now : Nat) (keys : List κ) :
    Answer × Store κ :=
  match keys.findSome? fun key => fault (limit key) (find expiring store now key) with
  | some error => (.error error, store)
  | none =>
    let retry := greatest (keys.map fun key => remaining now (find expiring store now key))
    if 0 < retry then (.refused (inSeconds retry), store)
    else
      let delay := greatest (keys.map fun key =>
        (count now (limit key) (current now (find expiring store now key))).2)
      (if delay = 0 then .admitted else .refused (inSeconds delay),
        fun key => if key ∈ keys then some (written expiring limit store now key) else store key)

end Script

/-- A limit that `LoginProtectionPolicy` accepts. -/
structure LoginLimit where
  value : Nat
  positive : 1 ≤ value
  bounded : value ≤ 10000

structure LoginProtectionPolicy where
  pairAttempts : LoginLimit
  accountAttempts : LoginLimit
  sourceRequests : LoginLimit

/-- The keys; an account and a source stand for their digests. -/
inductive LoginKey where
  | source (source : String)
  | account (account : String)
  | pair (account source : String)
  deriving DecidableEq

def LoginProtectionPolicy.limit (policy : LoginProtectionPolicy) : LoginKey → LoginLimit
  | .source _ => policy.sourceRequests
  | .account _ => policy.accountAttempts
  | .pair _ _ => policy.pairAttempts

/-- The keys that `begin` names. -/
def beginKeys (source : String) : List LoginKey := [.source source]

/-- The keys that `check_account` names. -/
def checkAccountKeys (account source : String) : List LoginKey :=
  [.account account, .pair account source]

inductive LoginError where
  | loginProtectionUnavailableError
  | loginRateLimitedError (retryAfterSeconds : Nat)

/-- `_check` on the answer of the script. -/
def checked : Answer → Except LoginError Unit
  | .admitted => .ok ()
  | .refused seconds =>
    if 1 ≤ seconds ∧ seconds ≤ 300 then
      .error (.loginRateLimitedError (max 1 (min seconds 300)))
    else .error .loginProtectionUnavailableError
  | .error _ => .error .loginProtectionUnavailableError

end SkillMind.Auth
