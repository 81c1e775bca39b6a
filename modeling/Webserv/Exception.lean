import Webserv.Control.Method
import Webserv.Text.Number

/-!
# Status codes and exceptions

`Exn` lists the exceptions derived from `std::exception`, the ones a `catch (const
std::exception &)` clause stops.  `Raised` adds what no clause of the repository stops.
-/

namespace Webserv

open Text

/-! ## `HttpStatus` -/

namespace HttpStatus

def ok : Str := lit "200"
def created : Str := lit "201"
def noContent : Str := lit "204"
def partialContent : Str := lit "206"
def badRequest : Str := lit "400"
def unauthorized : Str := lit "401"
def forbidden : Str := lit "403"
def notFound : Str := lit "404"
def payloadTooLarge : Str := lit "413"
def requestHeaderFieldTooLarge : Str := lit "431"
def internalServerError : Str := lit "500"
def serviceUnavailable : Str := lit "503"
def httpVersionNotSupported : Str := lit "505"

end HttpStatus

/-! ## Exceptions -/

inductive Exn
  /-- `HttpParser::ParseErrorExeption` -/
  | parseError (errorStatus : Str) (reason : String)
  /-- `HttpResponseBuilder::ResponseException` -/
  | response (httpStatus : Int) (msg : String)
  | runtimeError (msg : String)
  | invalidArgument (msg : String)
  | outOfRange (msg : String)
  deriving DecidableEq, Repr

/-- Every way a call ends other than by returning. -/
inductive Raised
  | std (e : Exn)
  /-- `throw -1`, which is not a `std::exception` -/
  | int (n : Int)
  /-- `SIGPIPE` with its default action: the process is killed -/
  | sigpipe
  /-- undefined behaviour: a dereferenced `end()` or null pointer, a write outside an array -/
  | undefined
  /-- `execve` replaced the process image -/
  | execve (path : Str) (args envs : List Str)
  deriving DecidableEq, Repr

/-- A computation that throws an `Exn`, among those that may throw anything. -/
def Raised.lift {α : Type} : Except Exn α → Except Raised α
  | .ok a => .ok a
  | .error e => .error (.std e)

@[simp] theorem Raised.lift_ok {α : Type} (a : α) : lift (.ok a) = .ok a := rfl

@[simp] theorem Raised.lift_error {α : Type} (e : Exn) :
    lift (.error e : Except Exn α) = .error (.std e) := rfl

theorem Raised.lift_eq_ok {α : Type} {x : Except Exn α} {a : α} (h : lift x = .ok a) :
    x = .ok a := by
  cases x with
  | error e => cases h
  | ok b => rw [Except.ok.inj h]

instance {σ : Type} : MonadLift (Except Exn) (Method σ Raised) where
  monadLift x := liftM (Raised.lift x)

@[simp] theorem run_lift_exn {σ α : Type} (x : Except Exn α) (s : σ) :
    (liftM x : Method σ Raised α).run s = (Raised.lift x, s) := rfl

theorem run_lift_exn_ok {σ α : Type} {x : Except Exn α} {a : α} (h : x = .ok a) (s : σ) :
    (liftM x : Method σ Raised α).run s = (.ok a, s) := by
  rw [run_lift_exn, h, Raised.lift_ok]

/-- `s.substr(pos, n)`. -/
def substr (s : Str) (pos : StringPos) (n : StringPos := npos) : Except Exn Str :=
  match substr? s pos n with
  | some t => .ok t
  | none => .error (.outOfRange "basic_string::substr")

theorem substr_ok {s t : Str} {pos n : StringPos} (h : substr? s pos n = some t) :
    substr s pos n = .ok t := by
  rw [substr, h]

theorem substr_of_drop {s t rest : Str} {pos : Nat} (hpos : pos ≤ s.length)
    (h : s.drop pos = t ++ rest) : substr s (some pos) (some t.length) = .ok t :=
  substr_ok (by rw [substr?, if_pos hpos, h, List.take_left' rfl])

theorem substr_drop {s : Str} {pos : Nat} (h : pos ≤ s.length) :
    substr s (some pos) = .ok (s.drop pos) :=
  substr_ok (by rw [substr?, if_pos h])

end Webserv
