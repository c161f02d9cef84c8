import CombatTrials.Proofs.Script.Evaluations

/-!
# Which calls a run makes

A call is made where a call expression is evaluated whose callee turns out to be a function: after
its arguments, if there are as many as the function takes (`Makes`). Nothing else makes a call. So
the calls of a run are exactly those of the call expressions that it evaluates, at whatever depth
they stand, and each comes after the calls that were made before its arguments were there
(`concat_prefix_calls_iff`). An expression that is passed over makes none.

One direction is read off `Evaluates.comesTo`, because a call that was made is not unmade. For the
other every call is traced back to its expression (`Explains`), along the steps of the evaluation.
-/

namespace CombatTrials
namespace Script

open Exec (reading reading_bind run_bind)
open World (Upholds)

variable {κ σ α β : Type}

/-! ## Expressions in expressions

The relations of evaluation are followed from the outside in. Here they are composed the other way,
so that what is known of an expression far inside is known from the root. -/

section Depth

variable {host : Host κ σ} {p q r : Scope κ × σ}

/-- The evaluation of an expression comes to that of an expression in it, at whatever depth. -/
inductive Expression.Evaluates (host : Host κ σ) (e : Expression) (p : Scope κ × σ) :
    Expression → Scope κ × σ → Prop
  | self : Evaluates host e p e p
  | part {e' e'' : Expression} {q r : Scope κ × σ} (h : Evaluates host e p e' q)
      (he : e'.Uses host q e'' r) :
      Evaluates host e p e'' r

theorem Expression.Uses.evaluates {e e' e'' : Expression} (h : e.Uses host p e' q)
    (h' : e'.Evaluates host q e'' r) : e.Evaluates host p e'' r := by
  induction h' with
  | self => exact .part .self h
  | part _ he ih => exact .part ih he

theorem Statement.Uses.evaluates {s : Statement} {e e' : Expression} (h : s.Uses host p e q)
    (h' : e.Evaluates host q e' r) : s.Evaluates host p e' r := by
  induction h' with
  | self => exact .root (.self s p) h
  | part _ he ih => exact .part ih he

theorem Statement.Reaches.trans {s t u : Statement} (h : s.Reaches host p t q)
    (h' : t.Reaches host q u r) : s.Reaches host p u r := by
  induction h with
  | self => exact h'
  | block hbefore _ ih => exact .block hbefore (ih h')
  | thenDo htrue _ ih => exact .thenDo htrue (ih h')
  | otherwise hfalse _ ih => exact .otherwise hfalse (ih h')
  | case hselect hget _ ih => exact .case hselect hget (ih h')

theorem Statement.Reaches.evaluates {s t : Statement} {e : Expression} (h : s.Reaches host p t q)
    (h' : t.Evaluates host q e r) : s.Evaluates host p e r := by
  induction h' with
  | root hreach huse => exact .root (h.trans hreach) huse
  | part _ he ih => exact .part ih he

end Depth

/-! ## Calls

A call is described with the calls that were made before it, and not with the place alone. Two calls
of one function with one argument are told apart in this way. -/

/-- A function with its arguments. -/
abbrev Called (κ : Type) := Native κ × List (Value κ)

variable {host : Host κ σ} {p q r : Noted κ σ} {earlier : List (Called κ)} {call : Called κ}

/-- An expression makes a call, when some calls have been made before. -/
def Expression.Makes (host : Host κ σ) (e : Expression) (p : Noted κ σ) (earlier : List (Called κ))
    (call : Called κ) : Prop :=
  ∃ callee args identity q r, e = .call callee args ∧
    (callee.step (World.noted host).host).run.run p = (.ok (.object identity (.native call.1)), q) ∧
    (reading fun scope => evaluateAll (World.noted host).host scope args).run.run q =
      (.ok call.2, r) ∧
    (∀ n, call.1.arity = some n → call.2.length = n) ∧ Effect.calls r.2.2 = earlier

/-- The evaluation of an expression comes to one that makes a call. -/
def Expression.MakesWithin (host : Host κ σ) (e : Expression) (p : Noted κ σ)
    (earlier : List (Called κ)) (call : Called κ) : Prop :=
  ∃ e' q, e.Evaluates (World.noted host).host p e' q ∧ e'.Makes host q earlier call

/-- The execution of a statement comes to evaluate an expression that makes a call. -/
def Statement.MakesWithin (host : Host κ σ) (s : Statement) (p : Noted κ σ)
    (earlier : List (Called κ)) (call : Called κ) : Prop :=
  ∃ e q, s.Evaluates (World.noted host).host p e q ∧ e.Makes host q earlier call

theorem Expression.Uses.makesWithin {e e' : Expression} (h : e.Uses (World.noted host).host p e' q)
    (hcalls : e'.MakesWithin host q earlier call) : e.MakesWithin host p earlier call := by
  obtain ⟨e'', r, hevaluates, hmakes⟩ := hcalls
  exact ⟨e'', r, h.evaluates hevaluates, hmakes⟩

theorem Statement.Uses.makesWithin {s : Statement} {e : Expression}
    (h : s.Uses (World.noted host).host p e q)
    (hcalls : e.MakesWithin host q earlier call) : s.MakesWithin host p earlier call := by
  obtain ⟨e', r, hevaluates, hmakes⟩ := hcalls
  exact ⟨e', r, h.evaluates hevaluates, hmakes⟩

theorem Statement.Reaches.makesWithin {s t : Statement}
    (h : s.Reaches (World.noted host).host p t q)
    (hcalls : t.MakesWithin host q earlier call) : s.MakesWithin host p earlier call := by
  obtain ⟨e, r, hevaluates, hmakes⟩ := hcalls
  exact ⟨e, r, h.evaluates hevaluates, hmakes⟩

/-! ## A call that was made stays made

For the direction from expressions to calls: the expression makes the call where it is evaluated,
and from there on the run only adds to the notes. -/

/-- A call is written down when it is made, and nothing that was written down is struck out. -/
theorem World.upholds_prefix_calls (host : Host κ σ) (calls : List (Called κ)) :
    Upholds (fun _ => True) (fun _ => True) (fun p : Noted κ σ => calls <+: Effect.calls p.2.2)
      (fun _ => True) (fun _ _ => True) (World.plain (World.noted host).host) where
  number _ := trivial
  boolean _ := trivial
  mismatch _ _ _ _ := trivial
  get x _ := by
    rintro ⟨scope, state, effects⟩ hp
    show Exec.Ended _ _ _ (scope.get x, (scope, state, effects))
    cases scope.get x <;> exact ⟨trivial, hp⟩
  access _ _ _ _ _ := .ofExcept (fun _ _ => trivial) fun _ _ _ _ => trivial
  -- the one step that adds a call, and it adds it at the end
  invoke _ _ _ _ vs _ _ := by
    refine .invoke (fun _ f _ => ?_) (fun _ _ _ => trivial) fun _ _ _ _ _ => trivial
    rintro ⟨scope, state, effects⟩ hp
    show Exec.Ended _ _ _
      ((reading fun _ => (World.noted host).host.call f vs).run.run (scope, state, effects))
    rw [noted_call_run]
    have hlonger : calls <+: Effect.calls (effects ++ [.call f vs]) := by
      rw [Effect.calls_concat_call]
      exact hp.trans (List.prefix_append _ _)
    cases ((host.call f vs).run.run state).1 <;> exact ⟨trivial, hlonger⟩
  bind _ _ _ _ _ := by
    intro p hp
    exact ⟨trivial, hp⟩
  unmatched _ _ _ _ _ _ _ := trivial

theorem Value.invoke_native {τ : Type} {world : Host κ τ} {identity : Nat} {f : Native κ}
    {args : List (Value κ)} (h : ∀ n, f.arity = some n → args.length = n) :
    (Value.object identity (.native f)).invoke world args = world.call f args := by
  simp only [invoke]
  cases harity : f.arity with
  | none => rfl
  | some n => exact if_pos (h n harity)

theorem Expression.Makes.calls_run {e : Expression} (h : e.Makes host p earlier call) :
    Effect.calls ((e.step (World.noted host).host).run.run p).2.2.2 = earlier ++ [call] := by
  obtain ⟨callee, args, identity, q, r, rfl, hcallee, hargs, harity, rfl⟩ := h
  obtain ⟨scope, state, effects⟩ := r
  simp only [step, evaluate, reading_bind, run_bind, hcallee, hargs, Value.invoke_native harity]
  rw [World.noted_call_run, Effect.calls_concat_call]

theorem Statement.MakesWithin.made {s : Statement} (h : s.MakesWithin host p earlier call) :
    earlier ++ [call] <+: Effect.calls ((s.execute (World.noted host).host).run.run p).2.2.2 := by
  obtain ⟨e, q, hevaluates, hmakes⟩ := h
  have hmade :
      earlier ++ [call] <+: Effect.calls ((e.step (World.noted host).host).run.run q).2.2.2 := by
    simp [hmakes.calls_run]
  exact hevaluates.comesTo.kept (World.upholds_prefix_calls host (earlier ++ [call])) hmade

/-! ## Every call is made by an expression

For the other direction every step of the evaluator has to answer for the calls it adds. The rules
are those of `Exec.Parallel` and `Exec.Keeps` once more, with the answer carried along. -/

/-- From some place, a computation adds to the calls, and each call that it adds is accounted for by
`P`, which is told the calls before it. -/
def Exec.Explains (m : Exec κ (σ × List (Effect κ)) α) (p : Noted κ σ)
    (P : List (Called κ) → Called κ → Prop) : Prop :=
  Effect.calls p.2.2 <+: Effect.calls (m.run.run p).2.2.2 ∧
    ∀ earlier call, Effect.calls p.2.2 <+: earlier →
      earlier ++ [call] <+: Effect.calls (m.run.run p).2.2.2 →
      P earlier call

namespace Exec.Explains

variable {P Q : List (Called κ) → Called κ → Prop} {m : Exec κ (σ × List (Effect κ)) α}
  {f : α → Exec κ (σ × List (Effect κ)) β}

theorem mono (h : Explains m p P) (hP : ∀ earlier call, P earlier call → Q earlier call) :
    Explains m p Q :=
  ⟨h.1, fun earlier call hbefore hadded => hP earlier call (h.2 earlier call hbefore hadded)⟩

theorem one (call : Called κ)
    (hend : Effect.calls (m.run.run p).2.2.2 = Effect.calls p.2.2 ++ [call])
    (hP : P (Effect.calls p.2.2) call) : Explains m p P := by
  unfold Explains
  rw [hend]
  refine ⟨List.prefix_append _ _, fun earlier call' hbefore hadded => ?_⟩
  have hlength := hadded.length_le
  simp only [List.length_append, List.length_singleton] at hlength
  obtain rfl := hbefore.eq_of_length_le (by omega)
  obtain rfl : call' = call := by simpa using hadded
  exact hP

theorem still (hend : Effect.calls (m.run.run p).2.2.2 = Effect.calls p.2.2) : Explains m p P := by
  unfold Explains
  rw [hend]
  refine ⟨List.prefix_rfl, fun earlier call hbefore hadded => ?_⟩
  have hlength := hbefore.length_le
  have hlonger := hadded.length_le
  simp only [List.length_append, List.length_singleton] at hlonger
  omega

theorem bind (h : Explains m p P) (hf : ∀ x q, m.run.run p = (.ok x, q) → Explains (f x) q P) :
    Explains (m >>= f) p P := by
  unfold Explains
  rw [run_bind]
  rcases hm : m.run.run p with ⟨_ | x, q⟩
  · unfold Explains at h
    rw [hm] at h
    exact h
  · obtain ⟨hmore, hadds⟩ := h
    obtain ⟨hmore', hadds'⟩ := hf x q hm
    rw [hm] at hmore hadds
    refine ⟨hmore.trans hmore', fun earlier call hbefore hadded => ?_⟩
    -- a call stands among those of the first step, or behind all of them
    rcases List.prefix_or_prefix_of_prefix hadded hmore' with hfirst | hsecond
    · exact hadds earlier call hbefore hfirst
    · rcases List.prefix_concat_iff.mp hsecond with heq | hsecond
      · exact hadds earlier call hbefore (heq ▸ List.prefix_rfl)
      · exact hadds' earlier call hsecond hadded

end Exec.Explains

open Exec (Explains)

/-! Whatever is accounted for by a part of an expression or statement is accounted for by the whole,
from the place on from which the whole came to the part. -/

theorem Expression.Uses.explains {e e' : Expression} {m : Exec κ (σ × List (Effect κ)) α}
    (huse : e.Uses (World.noted host).host p e' q) (h : Explains m q (e'.MakesWithin host q)) :
    Explains m q (e.MakesWithin host p) := by
  apply h.mono
  intro earlier call hcalls
  exact huse.makesWithin hcalls

theorem Statement.Uses.explains {s : Statement} {e : Expression}
    {m : Exec κ (σ × List (Effect κ)) α} (huse : s.Uses (World.noted host).host p e q)
    (h : Explains m q (e.MakesWithin host q)) : Explains m q (s.MakesWithin host p) := by
  apply h.mono
  intro earlier call hcalls
  exact huse.makesWithin hcalls

theorem Statement.Reaches.explains {s t : Statement} {m : Exec κ (σ × List (Effect κ)) α}
    (hreach : s.Reaches (World.noted host).host p t q) (h : Explains m q (t.MakesWithin host q)) :
    Explains m q (s.MakesWithin host p) := by
  apply h.mono
  intro earlier call hcalls
  exact hreach.makesWithin hcalls

/-- A value that is invoked makes one call if it is a function and the number of arguments is right,
and none otherwise. -/
theorem Value.explains_invoke (f : Value κ) (vs : List (Value κ)) (p : Noted κ σ) :
    Explains (reading fun _ => f.invoke (World.noted host).host vs) p fun earlier call =>
      ∃ identity, f = .object identity (.native call.1) ∧ vs = call.2 ∧
        (∀ n, call.1.arity = some n → call.2.length = n) ∧ earlier = Effect.calls p.2.2 := by
  cases f with
  | number | boolean => exact .still rfl
  | object identity body =>
    cases body with
    | record | custom => exact .still rfl
    | native f =>
      by_cases harity : ∀ n, f.arity = some n → vs.length = n
      · rw [Value.invoke_native harity]
        obtain ⟨scope, state, effects⟩ := p
        refine .one (f, vs) ?_ ⟨identity, rfl, rfl, harity, rfl⟩
        rw [World.noted_call_run, Effect.calls_concat_call]
      · -- the number of arguments is looked at before the host is asked
        have hwrong : ∃ n, f.arity = some n ∧ vs.length ≠ n := by simpa using harity
        obtain ⟨n, hn, hne⟩ := hwrong
        simp only [Value.invoke, hn, if_neg hne]
        exact .still rfl

mutual

/-- The calls of an expression are made within it. One case for each constructor: the parts are
evaluated in their order and account for their own calls, and what is done with their values makes
no call, except that a call expression invokes its callee in the end. -/
theorem Expression.explains :
    (e : Expression) → (p : Noted κ σ) →
    Explains (e.step (World.noted host).host) p (e.MakesWithin host p)
  | .identifier name, p => by
    simp only [step, evaluate]
    exact .still rfl
  | .literal l, p => by
    simp only [step, evaluate]
    exact .still rfl
  | .access target name, p => by
    simp only [step, evaluate, reading_bind]
    refine (Uses.target.explains (target.explains p)).bind fun v q _ => ?_
    exact .still rfl
  | .call callee args, p => by
    simp only [step, evaluate, reading_bind]
    refine (Uses.callee.explains (callee.explains p)).bind fun f q hcallee => ?_
    apply Explains.bind
    · apply (explainsAll args q).mono
      rintro earlier call ⟨before, e, after, us, t, rfl, hbefore, hcalls⟩
      exact (Uses.arg hcallee hbefore).makesWithin hcalls
    · -- the invocation is left, and this is the call that the expression itself makes
      intro vs r hargs
      apply (f.explains_invoke vs r).mono
      rintro _ call ⟨identity, rfl, rfl, harity, rfl⟩
      exact ⟨_, p, .self, callee, args, identity, q, r, rfl, hcallee, hargs, harity, rfl⟩
  | .unary op operand, p => by
    simp only [step, evaluate, reading_bind]
    refine (Uses.operand.explains (operand.explains p)).bind fun v q _ => ?_
    exact .still rfl
  | .arithmetic op lhs rhs, p => by
    simp only [step, evaluate, reading_bind]
    refine (Uses.arithmeticLeft.explains (lhs.explains p)).bind fun l q hlhs => ?_
    refine Explains.bind (.still rfl) fun a q' hcoerced => ?_
    obtain ⟨hnumber, rfl⟩ := Prod.mk.inj hcoerced
    -- the right operand is evaluated only once the left one has been read as a number
    refine ((Uses.arithmeticRight hlhs hnumber).explains (rhs.explains _)).bind fun r t _ => ?_
    refine Explains.bind (.still rfl) fun b t' _ => ?_
    exact .still rfl
  | .logical op lhs rhs, p => by
    simp only [step, evaluate, reading_bind]
    refine (Uses.logicalLeft.explains (lhs.explains p)).bind fun l q hlhs => ?_
    refine Explains.bind (.still rfl) fun a q' hcoerced => ?_
    obtain ⟨hboolean, rfl⟩ := Prod.mk.inj hcoerced
    cases hsettled : op.settled a with
    | true =>
      -- the left operand settles the matter, and the right one is passed over with all its calls
      exact .still rfl
    | false =>
      simp only [Bool.false_eq_true, if_false, reading_bind]
      have hright := (Uses.logicalRight hlhs hboolean hsettled).explains (rhs.explains _)
      refine hright.bind fun r t _ => ?_
      refine Explains.bind (.still rfl) fun b t' _ => ?_
      exact .still rfl
  | .comparison op lhs rhs, p => by
    simp only [step, evaluate, reading_bind]
    refine (Uses.comparisonLeft.explains (lhs.explains p)).bind fun l q hlhs => ?_
    refine ((Uses.comparisonRight hlhs).explains (rhs.explains q)).bind fun r t _ => ?_
    refine Explains.bind (.still rfl) fun b t' _ => ?_
    exact .still rfl

theorem Expression.explainsAll :
    (es : List Expression) → (p : Noted κ σ) →
    Explains (reading fun scope => evaluateAll (World.noted host).host scope es) p
      fun earlier call => ∃ before e after vs q, es = before ++ e :: after ∧
        (reading fun scope => evaluateAll (World.noted host).host scope before).run.run p =
          (.ok vs, q) ∧
        e.MakesWithin host q earlier call
  | [], p => by
    simp only [evaluateAll]
    exact .still rfl
  | e :: rest, p => by
    simp only [evaluateAll, reading_bind]
    apply Explains.bind
    · -- a call of the first, before which nothing was evaluated
      apply (e.explains p).mono
      intro earlier call hcalls
      exact ⟨[], e, rest, [], p, rfl, rfl, hcalls⟩
    · -- a call of the rest, before which the first was evaluated too
      intro v q hfirst
      apply Explains.bind
      · apply (explainsAll rest q).mono
        rintro earlier call ⟨before, e', after, us, t, rfl, hbefore, hcalls⟩
        refine ⟨e :: before, e', after, v :: us, t, rfl, ?_, hcalls⟩
        simp only [evaluateAll, reading_bind, run_bind, hfirst, hbefore]
        rfl
      · intro vs r _
        exact .still rfl

end

/-- The calls of a search among conditions are made within one of them, none before it having been
met. -/
theorem explains_anyMatches (v : Option (Value κ)) (conditions : List Expression) (p : Noted κ σ) :
    Explains (reading fun scope => anyMatches (World.noted host).host scope v conditions) p
      fun before call => ∃ earlier e later q, conditions = earlier ++ e :: later ∧
        (reading fun scope => anyMatches (World.noted host).host scope v earlier).run.run p =
          (.ok false, q) ∧
        e.MakesWithin host q before call := by
  induction conditions generalizing p with
  | nil =>
    simp only [anyMatches]
    exact .still rfl
  | cons e rest ih =>
    simp only [anyMatches, reading_bind]
    apply Explains.bind
    · apply (e.explains p).mono
      intro before call hcalls
      exact ⟨[], e, rest, p, rfl, rfl, hcalls⟩
    · intro u q hfirst
      refine Explains.bind (.still rfl) fun hit q' hmatch => ?_
      cases hit with
      | true =>
        -- the search ends here, and what comes after this condition is not evaluated
        exact .still rfl
      | false =>
        apply (ih q').mono
        rintro before call ⟨earlier, e', later, r, rfl, hearlier, hcalls⟩
        refine ⟨e :: earlier, e', later, r, rfl, ?_, hcalls⟩
        simp only [anyMatches, reading_bind, run_bind, hfirst, hmatch]
        exact hearlier

theorem explains_evaluateCondition (e : Expression) (p : Noted κ σ) :
    Explains (reading fun scope => evaluateCondition (World.noted host).host scope e) p
      (e.MakesWithin host p) := by
  simp only [evaluateCondition, reading_bind]
  refine (e.explains p).bind fun v q _ => ?_
  exact .still rfl

theorem explains_evaluateSubject (subject : Option Expression) (p : Noted κ σ) :
    Explains (reading fun scope => evaluateSubject (World.noted host).host scope subject) p
      fun earlier call => ∃ e, subject = some e ∧ e.MakesWithin host p earlier call := by
  cases subject with
  | none => exact .still rfl
  | some e =>
    simp only [evaluateSubject, reading_bind]
    apply Explains.bind
    · apply (e.explains p).mono
      intro earlier call hcalls
      exact ⟨e, rfl, hcalls⟩
    · intro v q _
      exact .still rfl

/-- The calls on the way to the case that is selected are made by conditions: by one of a case up to
which no case was met, and behind conditions of its own case that were not met either. -/
theorem Case.explains_position (v : Option (Value κ)) (cases : List Case) (p : Noted κ σ) :
    Explains (reading fun scope => Case.position (World.noted host).host scope v cases) p
      fun before call => ∃ passed earlier e later body rest q r,
        cases = passed ++ .matching (earlier ++ e :: later) body :: rest ∧
        (reading fun scope => Case.position (World.noted host).host scope v passed).run.run p =
          (.ok passed.length, q) ∧
        (reading fun scope => anyMatches (World.noted host).host scope v earlier).run.run q =
          (.ok false, r) ∧
        e.MakesWithin host r before call := by
  induction cases generalizing p with
  | nil =>
    simp only [Case.position]
    exact .still rfl
  | cons c rest ih =>
    cases c with
    | default body =>
      simp only [Case.position]
      exact .still rfl
    | matching conditions body =>
      simp only [Case.position, reading_bind]
      apply Explains.bind
      · -- a call of this case, up to which none was passed
        apply (explains_anyMatches v conditions p).mono
        rintro before call ⟨earlier, e, later, r, rfl, hearlier, hcalls⟩
        exact ⟨[], earlier, e, later, body, rest, p, r, rfl, rfl, hearlier, hcalls⟩
      · intro hit q hany
        cases hit with
        | true => exact .still rfl
        | false =>
          -- this case is passed, and so stands among the passed ones of every later call
          simp only [Bool.false_eq_true, if_false, reading_bind]
          apply Explains.bind
          · apply (ih q).mono
            rintro before call
              ⟨passed, earlier, e, later, body', rest', t, t', rfl, hpassed, hearlier, hcalls⟩
            refine ⟨.matching conditions body :: passed, earlier, e, later, body',
              rest', t, t', rfl, ?_, hearlier, hcalls⟩
            simp only [Case.position, reading_bind, run_bind, hany, Bool.false_eq_true, if_false,
              hpassed]
            rfl
          · intro n r _
            exact .still rfl

mutual

/-- The calls of a statement are made within it, again with one case for each constructor. Where a
part is executed only on a condition, the part is reached because the condition came out so. -/
theorem Statement.explains :
    (s : Statement) → (p : Noted κ σ) →
    Explains (s.execute (World.noted host).host) p (s.MakesWithin host p)
  | .block body, p => by
    apply (Statement.explainsAll body p).mono
    rintro earlier call ⟨before, s, after, q, rfl, hbefore, hcalls⟩
    exact (Statement.Reaches.block hbefore (.self s q)).makesWithin hcalls
  | .assign name value, p => by
    simp only [Statement.execute]
    refine (Statement.Uses.value.explains (value.explains p)).bind fun v q _ => ?_
    exact .still rfl
  | .branch condition thenDo none, p => by
    simp only [Statement.execute]
    have hcondition : Explains _ p (condition.MakesWithin host p) :=
      explains_evaluateCondition condition p
    refine (Statement.Uses.condition.explains hcondition).bind fun b q hb => ?_
    cases b with
    | true => exact (Statement.Reaches.thenDo hb (.self thenDo q)).explains (thenDo.explains q)
    | false => exact .still rfl
  | .branch condition thenDo (some otherwise), p => by
    simp only [Statement.execute]
    have hcondition : Explains _ p (condition.MakesWithin host p) :=
      explains_evaluateCondition condition p
    refine (Statement.Uses.condition.explains hcondition).bind fun b q hb => ?_
    cases b with
    | true => exact (Statement.Reaches.thenDo hb (.self thenDo q)).explains (thenDo.explains q)
    | false =>
      exact (Statement.Reaches.otherwise hb (.self otherwise q)).explains (otherwise.explains q)
  | .switch subject cases, p => by
    rw [← Statement.executeIn_plain, Statement.executeIn_switch, reading_select]
    simp only [bind_assoc, pure_bind]
    -- first the subject is evaluated, then a case is looked for, then its body is executed
    have hcalls : Explains
        (reading fun scope => evaluateSubject (World.noted host).host scope subject) p
        (Statement.MakesWithin host (.switch subject cases) p) := by
      apply (explains_evaluateSubject subject p).mono
      rintro earlier call ⟨e, rfl, hcalls⟩
      exact Statement.Uses.subject.makesWithin hcalls
    refine hcalls.bind fun v q hsubject => ?_
    have hcalls : Explains
        (reading fun scope => Case.position (World.noted host).host scope v cases) q
        (Statement.MakesWithin host (.switch subject cases) p) := by
      apply (Case.explains_position v cases q).mono
      rintro before call
        ⟨passed, earlier, e, later, body, rest, t, t', rfl, hpassed, hearlier, hcalls⟩
      exact (Statement.Uses.test hsubject hpassed hearlier).makesWithin hcalls
    refine hcalls.bind fun n r hposition => ?_
    unfold Case.executeAt
    cases hget : cases[n]? with
    | none =>
      -- no case is met, and the failure that follows makes no call
      exact .still rfl
    | some c =>
      have hselect :
          (reading fun scope => select (World.noted host).host scope subject cases).run.run p =
            (.ok (v, n), r) := by
        rw [reading_select, run_bind, hsubject]
        dsimp only
        rw [run_bind, hposition]
        rfl
      dsimp only
      rw [Statement.executeIn_plain]
      have hreach := Statement.Reaches.case hselect hget (.self _ r)
      exact hreach.explains (Case.explains cases n c hget r)
  | .expression value, p => by
    simp only [Statement.execute]
    refine (Statement.Uses.expression.explains (value.explains p)).bind fun v q _ => ?_
    exact .still rfl

theorem Statement.explainsAll :
    (body : List Statement) → (p : Noted κ σ) →
    Explains (Statement.executeAll (World.noted host).host body) p fun earlier call =>
      ∃ before s after q, body = before ++ s :: after ∧
        (Statement.executeAll (World.noted host).host before).run.run p = (.ok (), q) ∧
        s.MakesWithin host q earlier call
  | [], p => by
    simp only [Statement.executeAll]
    exact .still rfl
  | s :: rest, p => by
    simp only [Statement.executeAll]
    apply Explains.bind
    · apply (s.explains p).mono
      intro earlier call hcalls
      exact ⟨[], s, rest, p, rfl, rfl, hcalls⟩
    · -- the statements before it are the first and those before it in the rest
      intro _ q hfirst
      apply (Statement.explainsAll rest q).mono
      rintro earlier call ⟨before, t, after, r, rfl, hbefore, hcalls⟩
      refine ⟨s :: before, t, after, r, rfl, ?_, hcalls⟩
      simp only [Statement.executeAll, run_bind, hfirst, hbefore]

/-- The calls of the body of the case at a position. The recursion walks up to that position, so
that the body it ends with is structurally smaller than the switch. -/
theorem Case.explains :
    (cases : List Case) → (n : Nat) → (c : Case) → cases[n]? = some c → (p : Noted κ σ) →
    Explains (c.body.execute (World.noted host).host) p (c.body.MakesWithin host p)
  | .matching _ body :: _, 0, _, h, p => by
    obtain rfl := Option.some.inj h
    exact body.explains p
  | .default body :: _, 0, _, h, p => by
    obtain rfl := Option.some.inj h
    exact body.explains p
  | _ :: rest, n + 1, c, h, p => Case.explains rest n c h p

end

/-- An evaluation gives one value for each argument, so no values come of no arguments only. -/
theorem Expression.eq_nil_of_evaluateAll {es : List Expression}
    (h : (reading fun scope => evaluateAll (World.noted host).host scope es).run.run p =
      (.ok [], q)) :
    es = [] ∧ q = p := by
  cases es with
  | nil =>
    simp only [evaluateAll] at h
    exact ⟨rfl, (congrArg Prod.snd h).symm⟩
  | cons e rest =>
    simp only [evaluateAll, reading_bind] at h
    obtain ⟨v, q', -, h⟩ := Exec.exists_of_bind_run h
    obtain ⟨vs, r', -, h⟩ := Exec.exists_of_bind_run h
    cases h

/-- **The calls of a run are those of the call expressions that it evaluates**, each behind the
calls that were made before. -/
theorem Statement.concat_prefix_calls_iff (host : Host κ σ) (s : Statement)
    (scope : Scope κ) (state : σ) (earlier : List (Called κ)) (call : Called κ) :
    earlier ++ [call] <+: (s.account host scope state).calls ↔
      s.MakesWithin host (scope, state, []) earlier call := by
  rw [calls_account]
  constructor
  · intro h
    exact (s.explains (scope, state, [])).2 earlier call List.nil_prefix h
  · intro h
    exact h.made

end Script
end CombatTrials
