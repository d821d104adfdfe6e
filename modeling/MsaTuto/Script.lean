import Mathlib.Algebra.BigOperators.Group.Finset.Piecewise
import MsaTuto.Runs

/-! Asynchronous callbacks at work on one resource: each has a script of calls and
pauses ahead of it, and the scripts take turns. Independent of what the calls are. -/
namespace Runs
variable {κ ω : Type*}

/-- What is left of a callback. A call that throws goes on at its second branch;
`failed` is a rejected promise that nobody waits for. -/
inductive Script (ω : Type*) where
  | done
  | failed
  | call (op : ω) (next onThrow : Script ω)
  | sleep (ms : Option Rat) (next : Script ω)

inductive Reply where
  | accepted | threw
  deriving DecidableEq, Repr

namespace Script

def step : Script ω → Reply → List ω → Script ω × List ω
  | .call op next _, .accepted, log => (next, log ++ [op])
  | .call _ _ onThrow, .threw, log => (onThrow, log)
  | .sleep _ next, _, log => (next, log)
  | .done, _, log => (.done, log)
  | .failed, _, log => (.failed, log)

def calls : Script ω → List ω
  | .call op next _ => op :: next.calls
  | .sleep _ next => next.calls
  | .done | .failed => []

def ended : Script ω → Bool
  | .done | .failed => true
  | _ => false

/-- `P` holds of every call the script may still make, on any branch. -/
def Every (P : ω → Prop) : Script ω → Prop
  | .call op next onThrow => P op ∧ next.Every P ∧ onThrow.Every P
  | .sleep _ next => next.Every P
  | .done | .failed => True

theorem Every.step {P : ω → Prop} {s : Script ω} (h : s.Every P) (reply : Reply) (log : List ω) :
    (s.step reply log).1.Every P := by
  cases s with
  | done => trivial
  | failed => trivial
  | call op next onThrow =>
    cases reply with
    | accepted => exact h.2.1
    | threw => exact h.2.2
  | sleep ms next => exact h

/-- One of several scripts has taken a step. -/
theorem forall_stepped [DecidableEq κ] {Q : Script ω → Prop} {tasks : κ → Script ω} {k : κ}
    {reply : Reply} (h : ∀ k', Q (tasks k')) (hstep : Q ((tasks k).step reply []).1) :
    ∀ k', Q (Function.update tasks k ((tasks k).step reply []).1 k') :=
  (Function.forall_update_iff tasks fun _ => Q).mpr ⟨hstep, fun k' _ => h k'⟩

theorem Every.of_mem_step {P : ω → Prop} {s : Script ω} (h : s.Every P) (reply : Reply) {op : ω}
    (hop : op ∈ (s.step reply []).2) : P op := by
  cases s with
  | call op' next onThrow =>
    cases reply with
    | accepted =>
      obtain rfl := List.mem_singleton.mp hop
      exact h.1
    | threw => cases hop
  | _ => cases hop

theorem Every.mono {P Q : ω → Prop} (hPQ : ∀ op, P op → Q op) {s : Script ω} (h : s.Every P) :
    s.Every Q := by
  induction s with
  | done => trivial
  | failed => trivial
  | call op next onThrow ihnext ihthrow =>
    exact ⟨hPQ op h.1, ihnext h.2.1, ihthrow h.2.2⟩
  | sleep ms next ih => exact ih h

theorem calls_of_ended {s : Script ω} (h : s.ended = true) : s.calls = [] := by
  cases s with
  | done => rfl
  | failed => rfl
  | call op next onThrow => cases h
  | sleep ms next => cases h

theorem step_accepted (p : ω → Bool) (s : Script ω) (log : List ω) :
    (s.step .accepted log).2.countP p + (s.step .accepted log).1.calls.countP p =
      log.countP p + s.calls.countP p := by
  cases s with
  | done => rfl
  | failed => rfl
  | call op next onThrow =>
    simp only [step, calls, List.countP_append, List.countP_cons, List.countP_nil]
    omega
  | sleep ms next => rfl

end Script

def scripts (κ ω : Type*) : Pool κ Reply PEmpty (List ω) (Script ω) where
  act _ reply s log := s.step reply log
  env e := e.elim

def Turn.accepted : Turn κ Reply PEmpty → Prop
  | .call _ reply => reply = .accepted
  | .env e => e.elim

variable [DecidableEq κ] [Fintype κ]

/-- Conservation: without a throw, the calls logged and the calls ahead stay the same in
number, of whatever kind, in any order of turns. -/
theorem calls_conserved (p : ω → Bool) (w : World κ (List ω) (Script ω))
    {turns : List (Turn κ Reply PEmpty)} (h : ∀ t ∈ turns, t.accepted) :
    (run (scripts κ ω).step w turns).shared.countP p +
        ∑ k, ((run (scripts κ ω).step w turns).calls k).calls.countP p =
      w.shared.countP p + ∑ k, (w.calls k).calls.countP p := by
  induction turns generalizing w with
  | nil => rfl
  | cons t ts ih =>
    have hrest := ih ((scripts κ ω).step w t) fun t' ht' => h t' (List.mem_cons_of_mem t ht')
    rw [run, hrest]
    cases t with
    | env e => exact e.elim
    | call k reply =>
      obtain rfl : reply = .accepted := h _ List.mem_cons_self
      have hstep := Script.step_accepted p (w.calls k) w.shared
      have hsum : ∀ f : κ → Script ω, ∑ k', (f k').calls.countP p =
          (f k).calls.countP p + ∑ k' ∈ Finset.univ.erase k, (f k').calls.countP p :=
        fun f => (Finset.add_sum_erase _ _ (Finset.mem_univ k)).symm
      have hother : ∑ k' ∈ Finset.univ.erase k,
            (((scripts κ ω).step w (.call k .accepted)).calls k').calls.countP p =
          ∑ k' ∈ Finset.univ.erase k, (w.calls k').calls.countP p :=
        Finset.sum_congr rfl fun k' hk' => by
          rw [step_call_other _ _ (Finset.ne_of_mem_erase hk')]
      rw [hsum, hsum w.calls, hother, step_call_shared, step_call_self]
      change (Script.step _ _ _).2.countP p + ((Script.step _ _ _).1.calls.countP p + _) = _
      omega

theorem calls_at_end (p : ω → Bool) (start : κ → Script ω)
    {turns : List (Turn κ Reply PEmpty)} (h : ∀ t ∈ turns, t.accepted)
    (hended : ∀ k, ((run (scripts κ ω).step ⟨[], start⟩ turns).calls k).ended = true) :
    (run (scripts κ ω).step ⟨[], start⟩ turns).shared.countP p =
      ∑ k, (start k).calls.countP p := by
  have hcons := calls_conserved p ⟨[], start⟩ h
  have hzero : ∑ k, ((run (scripts κ ω).step ⟨[], start⟩ turns).calls k).calls.countP p = 0 :=
    Finset.sum_eq_zero fun k _ => by rw [Script.calls_of_ended (hended k), List.countP_nil]
  rw [hzero] at hcons
  simpa using hcons

end Runs
