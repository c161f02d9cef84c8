import CombatTrials.Proofs.Script.Frame

/-!
# Which expressions a run evaluates

`Statement.Reaches` says of a statement that a run comes to execute it. A statement that is executed
looks at some of the expressions in it, and an expression that is evaluated looks at some of its
operands: `Uses` has one rule for each position, with what has to be over before it is looked at,
and how. So an operand that is passed over, behind a left one that settles the matter or in a case
behind the one that is selected, is not used. `Statement.Evaluates` follows these rules from the
statement that is executed to an expression at any depth.

A run comes to each expression that it evaluates, and all that it does after it is what scripts do
(`Evaluates.comesTo`). So if the expression fails the run ends there, in the same failure, and what
scripts uphold holds at the end of the run if it holds at the end of the expression. What is upheld
from the start holds where the expression is evaluated (`Evaluates.invariant`).
-/

namespace CombatTrials
namespace Script

open Exec (Keeps reading reading_bind run_bind)
open World (Upholds)

variable {κ σ α β γ : Type}

/-! ## Runs of sequences

Facts about sequences at a given place, where the rules for parallel or invariant computations are
about all places at once. -/

namespace Exec

variable {m : Exec κ σ α} {f : α → Exec κ σ β} {p q r : Scope κ × σ}

theorem ofExcept_run (result : Except Failure α) (p : Scope κ × σ) :
    (reading fun _ => Run.ofExcept result).run.run p = (result, p) := rfl

/-- A sequence that ends with a value has come through both of its steps. -/
theorem exists_of_bind_run {y : β} (h : (m >>= f).run.run p = (.ok y, r)) :
    ∃ x q, m.run.run p = (.ok x, q) ∧ (f x).run.run q = (.ok y, r) := by
  rw [run_bind] at h
  rcases hm : m.run.run p with ⟨_ | x, q⟩
  · rw [hm] at h
    cases h
  · rw [hm] at h
    exact ⟨x, q, rfl, h⟩

/-- What is kept, at an end that is known to be a value. -/
theorem Keeps.of_run {I : Scope κ × σ → Prop} {V : α → Prop}
    {E : Failure → Scope κ × σ → Prop} {v : α}
    (h : Keeps I V E m) (hp : I p) (hrun : m.run.run p = (.ok v, q)) : V v ∧ I q := by
  have hend := h p hp
  rw [hrun] at hend
  exact hend

end Exec

open Exec (exists_of_bind_run)

/-! ## What is looked at next

There is one rule for each operand, with the runs of what comes before it as premises. A rule
without premises would be one for an operand that is always looked at, and first of all. -/

/-- An expression as a step of an execution. -/
abbrev Expression.step (host : Host κ σ) (e : Expression) : Exec κ σ (Value κ) :=
  reading fun scope => e.evaluate host scope

/-- The evaluation of an expression from one place evaluates an operand of it, from another
place. -/
inductive Expression.Uses (host : Host κ σ) :
    Expression → Scope κ × σ → Expression → Scope κ × σ → Prop
  | target {e : Expression} {name : String} {p : Scope κ × σ} : Uses host (.access e name) p e p
  | callee {e : Expression} {args : List Expression} {p : Scope κ × σ} :
      Uses host (.call e args) p e p
  | arg {callee e : Expression} {before after : List Expression} {f : Value κ} {vs : List (Value κ)}
      {p q r : Scope κ × σ} (hcallee : (callee.step host).run.run p = (.ok f, q))
      (hbefore : (reading fun scope => Expression.evaluateAll host scope before).run.run q =
        (.ok vs, r)) :
      Uses host (.call callee (before ++ e :: after)) p e r
  | operand {op : UnaryOp} {e : Expression} {p : Scope κ × σ} : Uses host (.unary op e) p e p
  | arithmeticLeft {op : ArithmeticOp} {e rhs : Expression} {p : Scope κ × σ} :
      Uses host (.arithmetic op e rhs) p e p
  | arithmeticRight {op : ArithmeticOp} {lhs e : Expression} {l : Value κ} {a : Float}
      {p q : Scope κ × σ} (hlhs : (lhs.step host).run.run p = (.ok l, q))
      (hnumber : l.toNumber = .ok a) : Uses host (.arithmetic op lhs e) p e q
  | logicalLeft {op : LogicalOp} {e rhs : Expression} {p : Scope κ × σ} :
      Uses host (.logical op e rhs) p e p
  | logicalRight {op : LogicalOp} {lhs e : Expression} {l : Value κ} {a : Bool} {p q : Scope κ × σ}
      (hlhs : (lhs.step host).run.run p = (.ok l, q)) (hboolean : l.toBoolean = .ok a)
      (hsettled : op.settled a = false) : Uses host (.logical op lhs e) p e q
  | comparisonLeft {op : ComparisonOp} {e rhs : Expression} {p : Scope κ × σ} :
      Uses host (.comparison op e rhs) p e p
  | comparisonRight {op : ComparisonOp} {lhs e : Expression} {l : Value κ} {p q : Scope κ × σ}
      (hlhs : (lhs.step host).run.run p = (.ok l, q)) : Uses host (.comparison op lhs e) p e q

/-- The execution of a statement from one place evaluates an expression that stands in the statement
itself, from another place. -/
inductive Statement.Uses (host : Host κ σ) :
    Statement → Scope κ × σ → Expression → Scope κ × σ → Prop
  | value {name : String} {e : Expression} {p : Scope κ × σ} : Uses host (.assign name e) p e p
  | condition {e : Expression} {thenDo : Statement} {otherwise : Option Statement}
      {p : Scope κ × σ} : Uses host (.branch e thenDo otherwise) p e p
  | subject {e : Expression} {cases : List Case} {p : Scope κ × σ} :
      Uses host (.switch (some e) cases) p e p
  /-- A condition of a case, when neither the cases before it nor the conditions before it match. -/
  | test {subject : Option Expression} {before after : List Case} {earlier later : List Expression}
      {e : Expression} {body : Statement} {v : Option (Value κ)} {p q r t : Scope κ × σ}
      (hsubject : (reading fun scope => evaluateSubject host scope subject).run.run p = (.ok v, q))
      (hbefore : (reading fun scope => Case.position host scope v before).run.run q =
        (.ok before.length, r))
      (hearlier : (reading fun scope => anyMatches host scope v earlier).run.run r =
        (.ok false, t)) :
      Uses host (.switch subject (before ++ .matching (earlier ++ e :: later) body :: after)) p e t
  | expression {e : Expression} {p : Scope κ × σ} : Uses host (.expression e) p e p

/-- The execution of a statement from one place comes to evaluate an expression, from another
place. -/
inductive Statement.Evaluates (host : Host κ σ) (s : Statement) (p : Scope κ × σ) :
    Expression → Scope κ × σ → Prop
  | root {t : Statement} {e : Expression} {q r : Scope κ × σ} (h : s.Reaches host p t q)
      (he : t.Uses host q e r) : Evaluates host s p e r
  | part {e e' : Expression} {q r : Scope κ × σ} (h : Evaluates host s p e q)
      (he : e.Uses host q e' r) : Evaluates host s p e' r

/-! ## How a run goes on

What is done after an expression was evaluated is hidden behind an existential. All that is known of
it is that it is tame, which is enough for failures, and for whatever scripts uphold. -/

namespace Exec

/-- A computation that leaves alone whatever scripts do against a host. -/
def Tame (host : Host κ σ) (m : Exec κ σ α) : Prop :=
  ∀ I, Upholds (fun _ => True) (fun _ => True) I (fun _ => True) (fun _ _ => True)
      (World.plain host) →
    Keeps I (fun _ => True) (fun _ _ => True) m

/-- A computation from one place comes to another one, from another place, and does after it what a
script does. -/
def ComesTo (host : Host κ σ) (n : Exec κ σ β) (p : Scope κ × σ) (m : Exec κ σ α)
    (q : Scope κ × σ) : Prop :=
  ∃ f : α → Exec κ σ β, n.run.run p = (m >>= f).run.run q ∧ ∀ x, Tame host (f x)

namespace ComesTo

variable {l : Exec κ σ γ} {n : Exec κ σ β} {m : Exec κ σ α} {f : α → Exec κ σ β}

theorem first (hf : ∀ x, Tame host (f x)) : ComesTo host (m >>= f) p m p := ⟨f, rfl, hf⟩

theorem self : ComesTo host m p m p := by
  refine ⟨pure, ?_, fun x I _ => .pure trivial⟩
  rw [bind_pure]

theorem congr {n' : Exec κ σ β} {p' : Scope κ × σ} (he : n.run.run p = n'.run.run p')
    (h : ComesTo host n' p' m q) : ComesTo host n p m q := by
  obtain ⟨f, hrun, hf⟩ := h
  exact ⟨f, he.trans hrun, hf⟩

theorem later {x : α} (hm : m.run.run p = (.ok x, q)) (h : ComesTo host (f x) q l r) :
    ComesTo host (m >>= f) p l r := by
  refine h.congr ?_
  rw [run_bind, hm]

/-- Coming to something goes on: what is done after both is what scripts do. -/
theorem trans (h : ComesTo host l r n p) (hn : ComesTo host n p m q) : ComesTo host l r m q := by
  obtain ⟨g, hl, hg⟩ := h
  obtain ⟨f, hrun, hf⟩ := hn
  refine ⟨fun x => f x >>= g, ?_, fun x I hI => (hf x I hI).bind fun y _ => hg y I hI⟩
  rw [hl, run_bind, hrun, ← run_bind, bind_assoc]

/-- A failure of what a computation comes to ends the whole of it, in the same place. -/
theorem run_eq_of_error {x : Failure} (h : ComesTo host n p m q)
    (hfail : m.run.run q = (.error x, r)) : n.run.run p = (.error x, r) := by
  obtain ⟨f, hrun, -⟩ := h
  rw [hrun, run_bind, hfail]

/-- What scripts uphold holds at the end if it held at the end of what was come to. -/
theorem kept {I : Scope κ × σ → Prop}
    (hupholds : Upholds (fun _ => True) (fun _ => True) I (fun _ => True) (fun _ _ => True)
      (World.plain host))
    (h : ComesTo host n p m q) (hend : I (m.run.run q).2) : I (n.run.run p).2 := by
  obtain ⟨f, hrun, hf⟩ := h
  rw [hrun, run_bind]
  rcases hm : m.run.run q with ⟨_ | x, r⟩
  · rw [hm] at hend
    exact hend
  · rw [hm] at hend
    exact (hf x I hupholds r hend).invariant

end ComesTo
end Exec

open Exec (ComesTo)

variable {host : Host κ σ} {p q r : Scope κ × σ}

/-- Arguments are evaluated in their order, so evaluating a list comes to each of them from where
those before it ended. -/
theorem Expression.comesTo_evaluateAll {before : List Expression} {vs : List (Value κ)}
    (e : Expression)
    (hbefore : (reading fun scope => evaluateAll host scope before).run.run q = (.ok vs, r))
    (after : List Expression) :
    ComesTo host (reading fun scope => evaluateAll host scope (before ++ e :: after)) q
      (e.step host) r := by
  -- by induction on the arguments that are over before
  induction before generalizing q vs with
  | nil =>
    simp only [evaluateAll] at hbefore
    obtain ⟨-, rfl⟩ := Prod.mk.inj hbefore
    simp only [List.nil_append, evaluateAll, reading_bind]
    refine .first fun v I h => ?_
    exact (h.evaluateAll after fun _ _ => trivial).bind fun vs _ => .pure trivial
  | cons first rest ih =>
    simp only [evaluateAll, reading_bind] at hbefore
    obtain ⟨v, q', hfirst, hbefore⟩ := exists_of_bind_run hbefore
    obtain ⟨us, r', hrest, hlast⟩ := exists_of_bind_run hbefore
    obtain ⟨-, rfl⟩ := Prod.mk.inj hlast
    simp only [List.cons_append, evaluateAll, reading_bind]
    exact .later hfirst (.trans (.first fun vs I _ => .pure trivial) (ih hrest))

/-- The evaluation of an expression comes to that of every operand that it uses. -/
theorem Expression.Uses.comesTo {e e' : Expression} (h : e.Uses host p e' q) :
    ComesTo host (e.step host) p (e'.step host) q := by
  cases h with
  | @target _ name =>
    simp only [step, evaluate, reading_bind]
    exact .first fun v I h => h.access e' name trivial v trivial
  | @callee _ args =>
    simp only [step, evaluate, reading_bind]
    exact .first fun f I h => (h.evaluateAll args fun _ _ => trivial).bind fun vs hvs =>
      h.invoke e' args trivial f vs trivial hvs
  | @arg callee _ before after f vs _ _ _ hcallee hbefore =>
    simp only [step, evaluate, reading_bind]
    refine .later hcallee (.trans (.first fun vs I h => ?_) (comesTo_evaluateAll e' hbefore after))
    exact h.invoke callee [] trivial f vs trivial fun _ _ => trivial
  | @operand op =>
    simp only [step, evaluate, reading_bind]
    exact .first fun v I h => h.coerce (op.coercive_apply v)
  | @arithmeticLeft op _ rhs =>
    simp only [step, evaluate, reading_bind]
    refine .first fun l I h => (h.coerce l.coercive_toNumber).bind fun a _ => ?_
    refine (h.evaluate rhs fun _ _ => trivial).bind fun r _ => ?_
    exact (h.coerce r.coercive_toNumber).bind fun b _ => .pure trivial
  | @arithmeticRight op _ _ l a _ _ hlhs hnumber =>
    have hcoerced : (reading fun _ => Run.ofExcept l.toNumber).run.run q = (.ok a, q) := by
      rw [Exec.ofExcept_run, hnumber]
    simp only [step, evaluate, reading_bind]
    refine .later hlhs (.later hcoerced (.first fun r I h => ?_))
    exact (h.coerce r.coercive_toNumber).bind fun b _ => .pure trivial
  | @logicalLeft op _ rhs =>
    simp only [step, evaluate, reading_bind]
    refine .first fun l I h => (h.coerce l.coercive_toBoolean).bind fun a _ => ?_
    cases op.settled a with
    | true => exact .pure trivial
    | false =>
      simp only [Bool.false_eq_true, if_false, reading_bind]
      refine (h.evaluate rhs fun _ _ => trivial).bind fun r _ =>
        (h.coerce r.coercive_toBoolean).bind fun b _ => ?_
      exact .pure trivial
  -- the right operand is used only where the left one has not settled the matter
  | @logicalRight op _ _ l a _ _ hlhs hboolean hsettled =>
    have hcoerced : (reading fun _ => Run.ofExcept l.toBoolean).run.run q = (.ok a, q) := by
      rw [Exec.ofExcept_run, hboolean]
    simp only [step, evaluate, reading_bind]
    refine .later hlhs (.later hcoerced ?_)
    simp only [hsettled, Bool.false_eq_true, if_false, reading_bind]
    exact .first fun r I h => (h.coerce r.coercive_toBoolean).bind fun b _ => .pure trivial
  | @comparisonLeft op _ rhs =>
    simp only [step, evaluate, reading_bind]
    refine .first fun l I h => (h.evaluate rhs fun _ _ => trivial).bind fun r _ => ?_
    exact (h.coerce (op.coercive_apply l r)).bind fun b _ => .pure trivial
  | @comparisonRight op _ _ l _ _ hlhs =>
    simp only [step, evaluate, reading_bind]
    refine .later hlhs (.first fun r I h => ?_)
    exact (h.coerce (op.coercive_apply l r)).bind fun b _ => .pure trivial

/-- Conditions are looked at in their order as well, up to the first that matches. -/
theorem comesTo_anyMatches {v : Option (Value κ)} {earlier : List Expression} (e : Expression)
    (hearlier : (reading fun scope => anyMatches host scope v earlier).run.run q = (.ok false, r))
    (later : List Expression) :
    ComesTo host (reading fun scope => anyMatches host scope v (earlier ++ e :: later)) q
      (e.step host) r := by
  induction earlier generalizing q with
  | nil =>
    simp only [anyMatches] at hearlier
    obtain ⟨-, rfl⟩ := Prod.mk.inj hearlier
    simp only [List.nil_append, anyMatches, reading_bind]
    refine .first fun u I h => (h.coerce (coercive_conditionMatches v u)).bind fun hit _ => ?_
    cases hit with
    | true => exact .pure trivial
    | false => exact h.anyMatches v fun _ _ => trivial
  | cons first rest ih =>
    simp only [anyMatches, reading_bind] at hearlier
    -- an earlier condition was evaluated without a failure, and did not match
    obtain ⟨u, q', hfirst, hearlier⟩ := exists_of_bind_run hearlier
    obtain ⟨hit, r', hmatch, hlast⟩ := exists_of_bind_run hearlier
    simp only [List.cons_append, anyMatches, reading_bind]
    refine .later hfirst (.later hmatch ?_)
    cases hit with
    | true => cases hlast
    | false => exact ih hlast

theorem Case.executeFirst_run_of_miss {v : Option (Value κ)} {before : List Case}
    (h : (reading fun scope => Case.position host scope v before).run.run q =
      (.ok before.length, r)) (rest : List Case) :
    (Case.executeFirst host v (before ++ rest)).run.run q =
      (Case.executeFirst host v rest).run.run r := by
  induction before generalizing q with
  | nil =>
    simp only [Case.position] at h
    obtain ⟨-, rfl⟩ := Prod.mk.inj h
    rfl
  | cons c before ih =>
    cases c with
    -- a default always matches, and so is not passed over
    | default body =>
      simp only [Case.position] at h
      cases h
    | matching conditions body =>
      simp only [Case.position, reading_bind] at h
      obtain ⟨hit, q', hany, h⟩ := exists_of_bind_run h
      simp only [List.cons_append, Case.executeFirst, run_bind, hany]
      cases hit with
      | true => cases h
      | false =>
        simp only [Bool.false_eq_true, if_false, reading_bind] at h
        obtain ⟨n, r', hposition, hend⟩ := exists_of_bind_run h
        obtain ⟨hn, rfl⟩ := Prod.mk.inj hend
        obtain rfl : n = before.length := by simpa using Except.ok.inj hn
        exact ih hposition

/-- Executing a statement is what scripts do. -/
theorem Statement.tame_execute (s : Statement) : Exec.Tame host (s.execute host) := by
  intro I h
  rw [← executeIn_plain]
  exact h.execute s (fun _ _ => trivial) fun _ _ => trivial

theorem Case.tame_executeFirst (v : Option (Value κ)) (cases : List Case) :
    Exec.Tame host (Case.executeFirst host v cases) := by
  intro I h
  rw [← executeFirstIn_plain]
  exact h.executeFirst v cases (fun _ _ => trivial) (fun _ _ => trivial) fun _ _ _ => trivial

/-- The execution of a statement comes to every expression of its own that it uses. -/
theorem Statement.Uses.comesTo {s : Statement} {e : Expression} (h : s.Uses host p e q) :
    ComesTo host (s.execute host) p (e.step host) q := by
  cases h with
  | @value name _ =>
    simp only [execute]
    exact .first fun v I h => h.bind name e trivial v trivial
  | @condition _ thenDo otherwise =>
    have hcondition : ComesTo host (reading fun scope => evaluateCondition host scope e) p
        (e.step host) p := by
      simp only [evaluateCondition, reading_bind]
      exact .first fun v I h => h.coerce v.coercive_toBoolean
    cases otherwise with
    | none =>
      simp only [execute]
      refine .trans (.first fun b => ?_) hcondition
      cases b with
      | true => exact thenDo.tame_execute
      | false => exact fun I _ => .pure trivial
    | some otherwise =>
      simp only [execute]
      refine .trans (.first fun b => ?_) hcondition
      cases b with
      | true => exact thenDo.tame_execute
      | false => exact otherwise.tame_execute
  | @subject _ cases =>
    simp only [execute, evaluateSubject, reading_bind]
    exact .trans (.first fun v => Case.tame_executeFirst v cases)
      (.first fun v I _ => .pure trivial)
  | @test subject before after earlier later _ body v _ _ _ _ hsubject hbefore hearlier =>
    simp only [execute]
    -- the cases before are passed over, and the conditions before in the case itself do not match
    refine .later hsubject (.congr (Case.executeFirst_run_of_miss hbefore _) ?_)
    rw [Case.executeFirst]
    refine .trans (.first fun selected => ?_) (comesTo_anyMatches e hearlier later)
    cases selected with
    | true => exact body.tame_execute
    | false => exact Case.tame_executeFirst v after
  | expression =>
    simp only [execute]
    exact .first fun _ I _ => .pure trivial

/-- The execution of a statement comes to every statement that it reaches. -/
theorem Statement.Reaches.comesTo {s t : Statement} (h : s.Reaches host p t q) :
    ComesTo host (s.execute host) p (t.execute host) q := by
  induction h with
  | self => exact .self
  -- the statements before it are over, and those behind it are what is done after
  | @block before after s _ _ _ _ hbefore _ ih =>
    simp only [← executeIn_plain, ← executeAllIn_plain] at hbefore ih ⊢
    simp only [executeIn, executeAllIn_append, executeAllIn]
    refine .later hbefore (.trans (.first fun _ I h => ?_) ih)
    exact h.executeAll after (fun _ _ => trivial) fun _ _ => trivial
  | @thenDo _ _ _ otherwise _ _ _ htrue _ ih =>
    cases otherwise with
    | none | some =>
      simp only [execute]
      exact .later htrue ih
  | otherwise hfalse _ ih =>
    simp only [execute]
    exact .later hfalse ih
  | case hselect hget _ ih =>
    rw [← executeIn_plain] at ih ⊢
    rw [executeIn_switch]
    refine .later hselect ?_
    simpa only [Case.executeAt, hget] using ih

/-- **A run comes to every expression that it evaluates**, at whatever depth. -/
theorem Statement.Evaluates.comesTo {s : Statement} {e : Expression} (h : s.Evaluates host p e q) :
    ComesTo host (s.execute host) p (e.step host) q := by
  induction h with
  | root hreach huse => exact hreach.comesTo.trans huse.comesTo
  | part _ huse ih => exact ih.trans huse.comesTo

/-! ## Invariants

Here the invariant is asked of a place in the middle of a run, where an expression is about to be
evaluated. It has come through all that was over by then. -/

section Invariants

variable {I : Scope κ × σ → Prop} {V : Value κ → Prop} {E : Failure → Scope κ × σ → Prop}

/-- Looking for a case keeps what a script keeps, since it only looks at conditions. -/
theorem World.Upholds.position {world : World κ σ}
    (h : Upholds (fun _ => True) (fun _ => True) I V E world) (v : Option (Value κ))
    (cases : List Case) :
    Keeps I (fun _ => True) E (reading fun scope => Case.position world.host scope v cases) := by
  induction cases with
  | nil => exact .pure trivial
  | cons c rest ih =>
    cases c with
    | default body => exact .pure trivial
    | matching conditions body =>
      simp only [Case.position, reading_bind]
      refine (h.anyMatches v fun _ _ => trivial).bind fun hit _ => ?_
      -- a match ends the search, and otherwise the rest of the cases is looked at from here
      cases hit with
      | true => exact .pure trivial
      | false =>
        simp only [Bool.false_eq_true, if_false, reading_bind]
        exact ih.bind fun _ _ => .pure trivial

variable (hupholds : Upholds (fun _ => True) (fun _ => True) I V E (World.plain host))

include hupholds

theorem Expression.keeps_step (e : Expression) : Keeps I V E (e.step host) :=
  hupholds.evaluate e fun _ _ => trivial

/-- The operands that are over before another one is used keep what is upheld. -/
theorem Expression.Uses.invariant {e e' : Expression} (h : e.Uses host p e' q) (hp : I p) :
    I q := by
  -- the first thing an expression looks at is looked at where the expression is
  cases h with
  | target | callee | operand | arithmeticLeft | logicalLeft | comparisonLeft => exact hp
  | @arg callee _ before _ _ _ _ _ _ hcallee hbefore =>
    have hq := ((callee.keeps_step hupholds).of_run hp hcallee).2
    exact (Keeps.of_run (hupholds.evaluateAll before fun _ _ => trivial) hq hbefore).2
  | @arithmeticRight _ lhs _ _ _ _ _ hlhs
  | @logicalRight _ lhs _ _ _ _ _ hlhs
  | @comparisonRight _ lhs _ _ _ _ hlhs =>
    exact ((lhs.keeps_step hupholds).of_run hp hlhs).2

theorem Statement.Uses.invariant {s : Statement} {e : Expression} (h : s.Uses host p e q)
    (hp : I p) : I q := by
  cases h with
  | value | condition | subject | expression => exact hp
  | @test subject before _ _ _ _ _ v _ _ _ _ hsubject hbefore hearlier =>
    have hq :=
      (Keeps.of_run (hupholds.evaluateSubject subject fun _ _ _ _ => trivial) hp hsubject).2
    have hr := (Keeps.of_run (hupholds.position v before) hq hbefore).2
    exact (Keeps.of_run (hupholds.anyMatches v fun _ _ => trivial) hr hearlier).2

theorem Statement.Reaches.invariant {s t : Statement} (h : s.Reaches host p t q) (hp : I p) :
    I q := by
  induction h with
  | self => exact hp
  | @block before _ _ _ _ _ _ hbefore _ ih =>
    rw [← executeAllIn_plain] at hbefore
    have hkeeps := hupholds.executeAll before (fun _ _ => trivial) fun _ _ => trivial
    exact ih (Keeps.of_run hkeeps hp hbefore).2
  -- a condition that came out was evaluated, and that keeps the invariant
  | thenDo hcondition _ ih | otherwise hcondition _ ih =>
    exact ih (Keeps.of_run (hupholds.evaluateCondition fun _ _ => trivial) hp hcondition).2
  | @case subject cases _ _ _ _ _ _ _ hselect _ _ ih =>
    have hkeeps :
        Keeps I (fun _ => True) E (reading fun scope => select host scope subject cases) := by
      rw [reading_select]
      refine (hupholds.evaluateSubject subject fun _ _ _ _ => trivial).bind fun v _ => ?_
      exact (hupholds.position v cases).bind fun n _ => .pure trivial
    exact ih (Keeps.of_run hkeeps hp hselect).2

/-- **What a script upholds holds wherever it evaluates an expression.** -/
theorem Statement.Evaluates.invariant {s : Statement} {e : Expression} (h : s.Evaluates host p e q)
    (hp : I p) : I q := by
  induction h with
  | root hreach huse => exact huse.invariant hupholds (hreach.invariant hupholds hp)
  | part _ huse ih => exact huse.invariant hupholds ih

end Invariants

end Script
end CombatTrials
