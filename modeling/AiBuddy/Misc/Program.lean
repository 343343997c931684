import Mathlib.Data.List.Basic
import Mathlib.Algebra.Ring.Int.Defs
import Mathlib.Logic.Relation

/-!
# Programs that issue commands

A program is a tree of commands and replies. It runs against a shared state that
others may change between two of its commands, and it may stop for good at any
point. `Program.Safe` is what is proved about the code of a program. The theorems
on `Program.Reach` and `Pool` turn it into facts about every moment of a run.
-/

/-- A program with commands `C β`, where `β` is the type of the reply. -/
inductive Program (C : Type → Type 1) (α : Type) : Type 1 where
  | ret (value : α)
  | call {β : Type} (command : C β) (next : β → Program C α)

universe u v

abbrev Semantics (C : Type → Type 1) (S : Type u) := ∀ {β : Type}, C β → S → β → S → Prop

namespace Program

variable {C : Type → Type 1} {α β γ ε : Type} {S : Type u}

protected def bind : Program C α → (α → Program C β) → Program C β
  | .ret value, f => f value
  | .call command next, f => .call command (fun reply => (next reply).bind f)

instance : Monad (Program C) where
  pure := .ret
  bind := Program.bind

def issue (command : C β) : Program C β := .call command .ret

@[simp] theorem pure_eq (value : α) : (pure value : Program C α) = .ret value := rfl

@[simp] theorem ret_bind (value : α) (f : α → Program C β) : (.ret value >>= f) = f value := rfl

@[simp] theorem call_bind (command : C γ) (next : γ → Program C α) (f : α → Program C β) :
    (.call command next >>= f) = .call command (fun reply => next reply >>= f) := rfl

/-- `for item in items`. -/
def forEach (body : β → Program C Unit) : List β → Program C Unit
  | [] => .ret ()
  | item :: items => body item >>= fun _ => forEach body items

/-! ## Safety -/

/-- Wherever `rely` may have moved the state, the next command does what `own` allows, and so
on to the end, where `post` holds. -/
def Safe (sem : Semantics C S) (rely : S → S → Prop) (own : ∀ {β : Type}, C β → S → S → Prop)
    (post : α → S → Prop) : Program C α → S → Prop
  | .ret value, s => post value s
  | .call command next, s => ∀ s₁ reply s₂, rely s s₁ → sem command s₁ reply s₂ →
      own command s₁ s₂ ∧ Safe sem rely own post (next reply) s₂

section Rules

variable {sem : Semantics C S} {rely : S → S → Prop} {own : ∀ {β : Type}, C β → S → S → Prop}
  {post post' : α → S → Prop} {s : S}

theorem Safe.mono {prog : Program C α} (h : Safe sem rely own post prog s)
    (hpost : ∀ value s, post value s → post' value s) : Safe sem rely own post' prog s := by
  induction prog generalizing s with
  | ret value => exact hpost _ _ h
  | call command next ih =>
    intro s₁ reply s₂ hrely hstep
    obtain ⟨hown, hnext⟩ := h s₁ reply s₂ hrely hstep
    exact ⟨hown, ih reply hnext⟩

/-- The others may move less. -/
theorem Safe.narrow {rely' : S → S → Prop} {prog : Program C α}
    (h : Safe sem rely own post prog s) (hle : ∀ s s', rely' s s' → rely s s') :
    Safe sem rely' own post prog s := by
  induction prog generalizing s with
  | ret value => exact h
  | call command next ih =>
    intro s₁ reply s₂ hrely hstep
    obtain ⟨hown, hnext⟩ := h s₁ reply s₂ (hle _ _ hrely) hstep
    exact ⟨hown, ih reply hnext⟩

theorem Safe.bind {prog : Program C α} {f : α → Program C β} {post : β → S → Prop}
    (h : Safe sem rely own (fun value s => Safe sem rely own post (f value) s) prog s) :
    Safe sem rely own post (prog >>= f) s := by
  induction prog generalizing s with
  | ret value => exact h
  | call command next ih =>
    intro s₁ reply s₂ hrely hstep
    obtain ⟨hown, hnext⟩ := h s₁ reply s₂ hrely hstep
    exact ⟨hown, ih reply hnext⟩

theorem Safe.issue {command : C β} {post : β → S → Prop}
    (h : ∀ s₁ reply s₂, rely s s₁ → sem command s₁ reply s₂ → own command s₁ s₂ ∧ post reply s₂) :
    Safe sem rely own post (Program.issue command) s := h

theorem Safe.issue_bind {command : C β} {f : β → Program C α}
    (h : ∀ s₁ reply s₂, rely s s₁ → sem command s₁ reply s₂ →
      own command s₁ s₂ ∧ Safe sem rely own post (f reply) s₂) :
    Safe sem rely own post (Program.issue command >>= f) s := h

end Rules

/-! ## Exceptions -/

abbrev Raising (C : Type → Type 1) (ε α : Type) := ExceptT ε (Program C) α

section Raising

variable {sem : Semantics C S} {rely : S → S → Prop} {own : ∀ {β : Type}, C β → S → S → Prop}
  {s : S}

def afterOk (sem : Semantics C S) (rely : S → S → Prop) (own : ∀ {β : Type}, C β → S → S → Prop)
    (post : Except ε β → S → Prop) (f : α → Raising C ε β) : Except ε α → S → Prop
  | .ok value, s => Safe sem rely own post (f value).run s
  | .error error, s => post (.error error) s

theorem Safe.raising_bind {prog : Raising C ε α} {f : α → Raising C ε β}
    {post : Except ε β → S → Prop}
    (h : Safe sem rely own (afterOk sem rely own post f) prog.run s) :
    Safe sem rely own post (prog >>= f).run s := by
  refine Safe.bind (h.mono ?_)
  rintro (error | value) s hpost
  · exact hpost
  · exact hpost

theorem Safe.then {prog : Raising C ε α} {f : α → Raising C ε β} {middle : Except ε α → S → Prop}
    {post : Except ε β → S → Prop} (h : Safe sem rely own middle prog.run s)
    (hok : ∀ value s, middle (.ok value) s → Safe sem rely own post (f value).run s)
    (herror : ∀ error s, middle (.error error) s → post (.error error) s) :
    Safe sem rely own post (prog >>= f).run s := by
  refine Safe.raising_bind (h.mono ?_)
  rintro (error | value) s hmiddle
  · exact herror error s hmiddle
  · exact hok value s hmiddle

/-- `try`: the outcome of a program, as a value. -/
def attempt (prog : Raising C ε α) : Raising C ε (Except ε α) :=
  ExceptT.mk (prog.run >>= fun outcome => .ret (.ok outcome))

theorem Safe.attempt_bind {prog : Raising C ε α} {f : Except ε α → Raising C ε β}
    {post : Except ε β → S → Prop}
    (h : Safe sem rely own (fun outcome s => Safe sem rely own post (f outcome).run s) prog.run s) :
    Safe sem rely own post (attempt prog >>= f).run s := by
  refine Safe.raising_bind (Safe.bind (h.mono ?_))
  exact fun outcome s hpost => hpost

end Raising

/-! ## Remote commands -/

/-- Commands that answer or fail with an `E`. -/
inductive Remote (E : Type) (C : Type → Type) : Type → Type 1 where
  | send {α : Type} (command : C α) : Remote E C (Except E α)

/-- What a client may see of a command that takes `s` to `run s`. When the connection is lost
the command has run or not. -/
inductive Answers {E : Type} (lost : E) (run : S → Except E α × S) (s : S) :
    Except E α → S → Prop where
  | answered : Answers lost run s (run s).1 (run s).2
  | unsent : Answers lost run s (.error lost) s
  | unheard : Answers lost run s (.error lost) (run s).2

namespace Answers

variable {E : Type} {lost : E} {run : S → Except E α × S} {s s' : S} {reply : Except E α}

theorem state (h : Answers lost run s reply s') : s' = s ∨ s' = (run s).2 := by
  cases h with
  | answered => exact .inr rfl
  | unsent => exact .inl rfl
  | unheard => exact .inr rfl

theorem of_ok {value : α} (h : Answers lost run s (.ok value) s') : run s = (.ok value, s') := by
  generalize hreply : Except.ok value = reply at h
  cases h with
  | answered => rfl
  | unsent => cases hreply
  | unheard => cases hreply

end Answers

def Remote.semantics {E : Type} {C : Type → Type}
    (perform : ∀ {α : Type}, C α → S → Except E α → S → Prop) : Semantics (Remote E C) S :=
  fun command s reply s' =>
    match command, reply with
    | .send command, reply => perform command s reply s'

def Remote.answer {E : Type} {C : Type → Type} (run : ∀ {α : Type}, C α → S → Except E α × S)
    {β : Type} (command : Remote E C β) (s : S) : β × S :=
  match β, command with
  | _, .send command => run command s

def send {E : Type} {C : Type → Type} (raised : E → ε) (command : C α) :
    Raising (Remote E C) ε α :=
  ExceptT.mk (issue (.send command) >>= fun reply => .ret (reply.mapError raised))

section Remote

variable {E : Type} {C : Type → Type} {perform : ∀ {α : Type}, C α → S → Except E α → S → Prop}
  {rely : S → S → Prop} {own : ∀ {β : Type}, Remote E C β → S → S → Prop} {s : S} {raised : E → ε}
  {command : C α}

theorem Safe.send {post : Except ε α → S → Prop}
    (h : ∀ s₁ reply s₂, rely s s₁ → perform command s₁ reply s₂ →
      own (.send command) s₁ s₂ ∧ post (reply.mapError raised) s₂) :
    Safe (Remote.semantics perform) rely own post (send raised command).run s := h

theorem Safe.send_bind {f : α → Raising (Remote E C) ε β} {post : Except ε β → S → Prop}
    (h : ∀ s₁ reply s₂, rely s s₁ → perform command s₁ reply s₂ →
      own (.send command) s₁ s₂ ∧
        (∀ value, reply = .ok value →
          Safe (Remote.semantics perform) rely own post (f value).run s₂) ∧
        (∀ error, reply = .error error → post (.error (raised error)) s₂)) :
    Safe (Remote.semantics perform) rely own post (Program.send raised command >>= f).run s := by
  refine Safe.raising_bind (Safe.send fun s₁ reply s₂ hrely hstep => ?_)
  obtain ⟨hown, hok, herror⟩ := h s₁ reply s₂ hrely hstep
  refine ⟨hown, ?_⟩
  cases reply with
  | ok value => exact hok value rfl
  | error error => exact herror error rfl

end Remote

/-! ## Issued commands -/

/-- Every command that the program may issue, whatever it is answered, meets a condition. -/
def Issues (allowed : ∀ {β : Type}, C β → Prop) : Program C α → Prop
  | .ret _ => True
  | .call command next => allowed command ∧ ∀ reply, Issues allowed (next reply)

section Issues

variable {allowed : ∀ {β : Type}, C β → Prop}

theorem Issues.mono {allowed' : ∀ {β : Type}, C β → Prop} {prog : Program C α}
    (h : prog.Issues allowed) (hle : ∀ {β : Type} (command : C β), allowed command →
      allowed' command) :
    prog.Issues allowed' := by
  induction prog with
  | ret value => trivial
  | call command next ih => exact ⟨hle command h.1, fun reply => ih reply (h.2 reply)⟩

theorem Issues.bind {prog : Program C α} {f : α → Program C β} (h : prog.Issues allowed)
    (hnext : ∀ value, (f value).Issues allowed) : (prog >>= f).Issues allowed := by
  induction prog with
  | ret value => exact hnext value
  | call command next ih => exact ⟨h.1, fun reply => ih reply (h.2 reply)⟩

theorem Issues.raising_bind {prog : Raising C ε α} {f : α → Raising C ε β}
    (h : prog.run.Issues allowed) (hnext : ∀ value, (f value).run.Issues allowed) :
    (prog >>= f).run.Issues allowed := by
  refine Issues.bind h ?_
  rintro (error | value)
  · trivial
  · exact hnext value

theorem Issues.attempt_bind {prog : Raising C ε α} {f : Except ε α → Raising C ε β}
    (h : prog.run.Issues allowed) (hnext : ∀ outcome, (f outcome).run.Issues allowed) :
    (attempt prog >>= f).run.Issues allowed := by
  refine Issues.raising_bind (Issues.bind h fun outcome => trivial) hnext

theorem Issues.send {E : Type} {C : Type → Type}
    {allowed : ∀ {β : Type}, Remote E C β → Prop} {raised : E → ε} {command : C α}
    (h : allowed (.send command)) : (Program.send raised command).run.Issues allowed :=
  ⟨h, fun _ => trivial⟩

theorem Issues.safe {sem : Semantics C S} {rely : S → S → Prop}
    {own : ∀ {β : Type}, C β → S → S → Prop} {prog : Program C α} (h : prog.Issues allowed)
    (hown : ∀ {β : Type} (command : C β) s reply s', allowed command → sem command s reply s' →
      own command s s') (s : S) : Safe sem rely own (fun _ _ => True) prog s := by
  induction prog generalizing s with
  | ret value => trivial
  | call command next ih =>
    intro s₁ reply s₂ _ hstep
    exact ⟨hown command s₁ reply s₂ h.1 hstep, ih reply (h.2 reply) s₂⟩

theorem Issues.safe_along {sem : Semantics C S} {rely rel : S → S → Prop}
    {own : ∀ {β : Type}, C β → S → S → Prop} {prog : Program C α}
    (hrefl : ∀ s, rel s s) (htrans : ∀ s₁ s₂ s₃, rel s₁ s₂ → rel s₂ s₃ → rel s₁ s₃)
    (hrely : ∀ s s', rely s s' → rel s s')
    (hown : ∀ {β : Type} (command : C β) s reply s', allowed command → sem command s reply s' →
      own command s s' ∧ rel s s')
    (h : prog.Issues allowed) (s : S) : Safe sem rely own (fun _ s' => rel s s') prog s := by
  induction prog generalizing s with
  | ret value => exact hrefl s
  | call command next ih =>
    intro s₁ reply s₂ hmove hstep
    obtain ⟨hcommand, hrel⟩ := hown command s₁ reply s₂ h.1 hstep
    refine ⟨hcommand, (ih reply (h.2 reply) s₂).mono fun _ s' hrest => ?_⟩
    exact htrans _ _ _ (hrely _ _ hmove) (htrans _ _ _ hrel hrest)

end Issues

/-! ## Runs of one program -/

/-- How far a program may have come, with the others moving along `rely`. A program that never
moves again has stopped. -/
inductive Reach (sem : Semantics C S) (rely : S → S → Prop) (prog : Program C α) (s : S) :
    Program C α → S → Prop where
  | refl : Reach sem rely prog s prog s
  | other {prog' : Program C α} {s₁ s₂ : S} :
      Reach sem rely prog s prog' s₁ → rely s₁ s₂ → Reach sem rely prog s prog' s₂
  | call {γ : Type} {command : C γ} {next : γ → Program C α} {reply : γ} {s₁ s₂ : S} :
      Reach sem rely prog s (.call command next) s₁ → sem command s₁ reply s₂ →
        Reach sem rely prog s (next reply) s₂

theorem Reach.head {sem : Semantics C S} {rely : S → S → Prop} {γ : Type} {command : C γ}
    {next : γ → Program C α} {reply : γ} {prog' : Program C α} {s s₁ s' : S}
    (hstep : sem command s reply s₁) (h : Reach sem rely (next reply) s₁ prog' s') :
    Reach sem rely (.call command next) s prog' s' := by
  induction h with
  | refl => exact .call .refl hstep
  | other _ hrely ih => exact .other ih hrely
  | call _ hnext ih => exact .call ih hnext

theorem Reach.after {sem : Semantics C S} {rely : S → S → Prop} {prog prog' : Program C α}
    {s s₁ s' : S} (hrely : rely s s₁) (h : Reach sem rely prog s₁ prog' s') :
    Reach sem rely prog s prog' s' := by
  induction h with
  | refl => exact .other .refl hrely
  | other _ hnext ih => exact .other ih hnext
  | call _ hnext ih => exact .call ih hnext

/-- The first commands of a program, undisturbed, with `answer` for the replies. -/
def advance (answer : ∀ {β : Type}, C β → S → β × S) : Nat → Program C α → S → Program C α × S
  | 0, prog, s => (prog, s)
  | _ + 1, .ret value, s => (.ret value, s)
  | n + 1, .call command next, s => advance answer n (next (answer command s).1)
    (answer command s).2

/-- Whether the commands that `advance` issues pass a check. -/
def checks (answer : ∀ {β : Type}, C β → S → β × S) (check : ∀ {β : Type}, C β → S → Bool) :
    Nat → Program C α → S → Bool
  | 0, _, _ => true
  | _ + 1, .ret _, _ => true
  | n + 1, .call command next, s =>
    check command s && checks answer check n (next (answer command s).1) (answer command s).2

theorem reach_advance {sem : Semantics C S} {rely : S → S → Prop}
    {answer : ∀ {β : Type}, C β → S → β × S} (check : ∀ {β : Type}, C β → S → Bool)
    (h : ∀ {β : Type} (command : C β) (s : S), check command s = true →
      sem command s (answer command s).1 (answer command s).2)
    (n : Nat) (prog : Program C α) (s : S) (hcheck : checks answer check n prog s = true) :
    Reach sem rely prog s (advance answer n prog s).1 (advance answer n prog s).2 := by
  induction n generalizing prog s with
  | zero => exact .refl
  | succ n ih =>
    cases prog with
    | ret value => exact .refl
    | call command next =>
      obtain ⟨hfirst, hrest⟩ := Bool.and_eq_true_iff.mp hcheck
      exact .head (h command s hfirst) (ih _ _ hrest)

theorem Safe.stable {sem : Semantics C S} {rely : S → S → Prop}
    {own : ∀ {β : Type}, C β → S → S → Prop} {prog : Program C α} {s s' : S}
    (htrans : ∀ s₁ s₂ s₃, rely s₁ s₂ → rely s₂ s₃ → rely s₁ s₃)
    (h : Safe sem rely own (fun _ _ => True) prog s) (hrely : rely s s') :
    Safe sem rely own (fun _ _ => True) prog s' := by
  cases prog with
  | ret => trivial
  | call command next =>
    exact fun s₁ reply s₂ hrely' hstep => h s₁ reply s₂ (htrans _ _ _ hrely hrely') hstep

theorem Safe.invariant {sem : Semantics C S} {rely : S → S → Prop}
    {own : ∀ {β : Type}, C β → S → S → Prop} {prog prog' : Program C α} {s s' : S}
    (inv : S → Prop) (htrans : ∀ s₁ s₂ s₃, rely s₁ s₂ → rely s₂ s₃ → rely s₁ s₃)
    (hrefl : ∀ s, rely s s)
    (hother : ∀ s s', inv s → rely s s' → inv s')
    (hown : ∀ {β : Type} (command : C β) s s', inv s → own command s s' → inv s')
    (hsafe : Safe sem rely own (fun _ _ => True) prog s) (hs : inv s)
    (hreach : Reach sem rely prog s prog' s') : inv s' := by
  have hboth : inv s' ∧ Safe sem rely own (fun _ _ => True) prog' s' := by
    induction hreach with
    | refl => exact ⟨hs, hsafe⟩
    | other _ hrely ih => exact ⟨hother _ _ ih.1 hrely, ih.2.stable htrans hrely⟩
    | call _ hstep ih =>
      obtain ⟨hown', hnext⟩ := ih.2 _ _ _ (hrefl _) hstep
      exact ⟨hown _ _ _ ih.1 hown', hnext⟩
  exact hboth.1

theorem Safe.returned {sem : Semantics C S} {rely : S → S → Prop}
    {own : ∀ {β : Type}, C β → S → S → Prop} {post : α → S → Prop} {prog : Program C α} {value : α}
    {s s' : S} (htrans : ∀ s₁ s₂ s₃, rely s₁ s₂ → rely s₂ s₃ → rely s₁ s₃)
    (hrefl : ∀ s, rely s s) (hpost : ∀ value s s', post value s → rely s s' → post value s')
    (hsafe : Safe sem rely own post prog s) (hreach : Reach sem rely prog s (.ret value) s') :
    post value s' := by
  have hrest : ∀ {prog' s'}, Reach sem rely prog s prog' s' → Safe sem rely own post prog' s' := by
    intro prog' s' hreach
    induction hreach with
    | refl => exact hsafe
    | @other prog' _ _ _ hrely ih =>
      cases prog' with
      | ret value => exact hpost _ _ _ ih hrely
      | call command next =>
        exact fun s₁ reply s₂ hrely' hstep => ih s₁ reply s₂ (htrans _ _ _ hrely hrely') hstep
    | call _ hstep ih => exact (ih _ _ _ (hrefl _) hstep).2
  exact hrest hreach

inductive Turn (sem : Semantics C S) : Program C α → S → Program C α → S → Prop where
  | call {γ : Type} {command : C γ} {next : γ → Program C α} {reply : γ} {s s' : S} :
      sem command s reply s' → Turn sem (.call command next) s (next reply) s'

theorem Reach.eq_ret {sem : Semantics C S} {rely : S → S → Prop} {value : α} {prog : Program C α}
    {s s' : S} (h : Reach sem rely (.ret value) s prog s') : prog = .ret value := by
  induction h with
  | refl => rfl
  | other _ _ ih => exact ih
  | call _ _ ih => cases ih

/-- What the allowed commands and the moves of the others keep holds as far as a program may come,
and the rest of the program issues allowed commands. -/
theorem Issues.reach {sem : Semantics C S} {rely : S → S → Prop}
    {allowed : ∀ {β : Type}, C β → Prop} {prog prog' : Program C α} {s s' : S} (inv : S → Prop)
    (hother : ∀ s s', inv s → rely s s' → inv s')
    (hown : ∀ {β : Type} (command : C β) s reply s', allowed command → inv s →
      sem command s reply s' → inv s')
    (hissues : prog.Issues allowed) (hs : inv s) (hreach : Reach sem rely prog s prog' s') :
    inv s' ∧ prog'.Issues allowed := by
  induction hreach with
  | refl => exact ⟨hs, hissues⟩
  | other _ hrely ih => exact ⟨hother _ _ ih.1 hrely, ih.2⟩
  | call _ hstep ih => exact ⟨hown _ _ _ _ ih.2.1 ih.1 hstep, ih.2.2 _⟩

/-! ## Sessions -/

inductive Sessions (sem : Semantics C S) (rely : S → S → Prop)
    (session : (α : Type) → Program C α → Prop) (start : S) : S → Prop where
  | start : Sessions sem rely session start start
  | session {α : Type} {prog prog' : Program C α} {s s' : S} :
      Sessions sem rely session start s → session α prog → Reach sem rely prog s prog' s' →
        Sessions sem rely session start s'

theorem Sessions.invariant {sem : Semantics C S} {rely : S → S → Prop}
    {session : (α : Type) → Program C α → Prop} {start s : S}
    (inv : S → Prop) (own : ∀ {β : Type}, C β → S → S → Prop)
    (htrans : ∀ s₁ s₂ s₃, rely s₁ s₂ → rely s₂ s₃ → rely s₁ s₃)
    (hrefl : ∀ s, rely s s)
    (hother : ∀ s s', inv s → rely s s' → inv s')
    (hown : ∀ {β : Type} (command : C β) s s', inv s → own command s s' → inv s')
    (hsafe : ∀ {α : Type} (prog : Program C α) s, inv s → session α prog →
      Safe sem rely own (fun _ _ => True) prog s)
    (hstart : inv start) (h : Sessions sem rely session start s) : inv s := by
  induction h with
  | start => exact hstart
  | session _ hsession hreach ih =>
    exact Safe.invariant inv htrans hrefl hother hown (hsafe _ _ ih hsession) ih hreach

/-! ## Pools -/

/-- Threads over one shared state. A thread that has crashed is one that never moves again. -/
structure Pool (C : Type → Type 1) (α : Type) (S : Type u) where
  threads : List (Program C α)
  shared : S

/-- A thread starts, a thread issues its next command, or the rest of the system moves. -/
inductive Pool.Step (sem : Semantics C S) (spawn : S → Program C α → Prop) (env : S → S → Prop) :
    Pool C α S → Pool C α S → Prop where
  | spawn {threads : List (Program C α)} {prog : Program C α} {s : S} :
      spawn s prog → Pool.Step sem spawn env ⟨threads, s⟩ ⟨prog :: threads, s⟩
  | call {before after : List (Program C α)} {γ : Type} {command : C γ} {next : γ → Program C α}
      {reply : γ} {s s' : S} : sem command s reply s' →
        Pool.Step sem spawn env ⟨before ++ .call command next :: after, s⟩
          ⟨before ++ next reply :: after, s'⟩
  | env {threads : List (Program C α)} {s s' : S} :
      env s s' → Pool.Step sem spawn env ⟨threads, s⟩ ⟨threads, s'⟩

abbrev Pool.Run (sem : Semantics C S) (spawn : S → Program C α → Prop) (env : S → S → Prop)
    (start : S) : Pool C α S → Prop :=
  Relation.ReflTransGen (Pool.Step sem spawn env) ⟨[], start⟩

def Pool.Sound (sem : Semantics C S) (rely : S → S → Prop)
    (own : ∀ {β : Type}, C β → S → S → Prop) (inv : S → Prop) (pool : Pool C α S) : Prop :=
  inv pool.shared ∧ ∀ prog ∈ pool.threads, Safe sem rely own (fun _ _ => True) prog pool.shared

section Pools

variable {sem : Semantics C S} {rely : S → S → Prop} {spawn : S → Program C α → Prop}
  {env : S → S → Prop} {start : S} {pool pool' : Pool C α S}

theorem Pool.Sound.step (inv : S → Prop) (own : ∀ {β : Type}, C β → S → S → Prop)
    (htrans : ∀ s₁ s₂ s₃, rely s₁ s₂ → rely s₂ s₃ → rely s₁ s₃)
    (hrefl : ∀ s, rely s s)
    (henv : ∀ s s', inv s → env s s' → rely s s' ∧ inv s')
    (hown : ∀ {β : Type} (command : C β) s s', inv s → own command s s' → rely s s' ∧ inv s')
    (hspawn : ∀ prog s, inv s → spawn s prog → Safe sem rely own (fun _ _ => True) prog s)
    (h : Pool.Sound sem rely own inv pool) (hstep : Pool.Step sem spawn env pool pool') :
    rely pool.shared pool'.shared ∧ Pool.Sound sem rely own inv pool' := by
  cases hstep with
  | spawn hprog =>
    refine ⟨hrefl _, h.1, fun prog hmem => ?_⟩
    rcases List.mem_cons.mp hmem with rfl | hmem
    · exact hspawn _ _ h.1 hprog
    · exact h.2 _ hmem
  | env hmove =>
    obtain ⟨hrely, hinv⟩ := henv _ _ h.1 hmove
    exact ⟨hrely, hinv, fun prog hmem => (h.2 _ hmem).stable htrans hrely⟩
  | call hcommand =>
    have hthread := h.2 _ (List.mem_append_right _ List.mem_cons_self)
    obtain ⟨hown', hnext⟩ := hthread _ _ _ (hrefl _) hcommand
    obtain ⟨hrely, hinv⟩ := hown _ _ _ h.1 hown'
    refine ⟨hrely, hinv, fun prog hmem => ?_⟩
    rcases List.mem_append.mp hmem with hmem | hmem
    · exact (h.2 _ (List.mem_append_left _ hmem)).stable htrans hrely
    · rcases List.mem_cons.mp hmem with rfl | hmem
      · exact hnext
      · exact (h.2 _ (List.mem_append_right _ (List.mem_cons_of_mem _ hmem))).stable htrans hrely

/-- Every moment of a run is sound, and from any moment to any later one the state has moved
along `rely`. -/
theorem Pool.Sound.run (inv : S → Prop) (own : ∀ {β : Type}, C β → S → S → Prop)
    (htrans : ∀ s₁ s₂ s₃, rely s₁ s₂ → rely s₂ s₃ → rely s₁ s₃)
    (hrefl : ∀ s, rely s s)
    (henv : ∀ s s', inv s → env s s' → rely s s' ∧ inv s')
    (hown : ∀ {β : Type} (command : C β) s s', inv s → own command s s' → rely s s' ∧ inv s')
    (hspawn : ∀ prog s, inv s → spawn s prog → Safe sem rely own (fun _ _ => True) prog s)
    (h : Pool.Sound sem rely own inv pool)
    (hrun : Relation.ReflTransGen (Pool.Step sem spawn env) pool pool') :
    rely pool.shared pool'.shared ∧ Pool.Sound sem rely own inv pool' := by
  induction hrun with
  | refl => exact ⟨hrefl _, h⟩
  | tail _ hstep ih =>
    obtain ⟨hrely, hsound⟩ := ih.2.step inv own htrans hrefl henv hown hspawn hstep
    exact ⟨htrans _ _ _ ih.1 hrely, hsound⟩

theorem Pool.Sound.moves {inv : S → Prop} {own : ∀ {β : Type}, C β → S → S → Prop}
    (hrefl : ∀ s, rely s s) (h : Pool.Sound sem rely own inv pool)
    (hstep : Pool.Step sem spawn env pool pool') :
    pool'.shared = pool.shared ∨ env pool.shared pool'.shared ∨
      ∃ (β : Type) (command : C β), own command pool.shared pool'.shared := by
  cases hstep with
  | spawn hprog => exact .inl rfl
  | env hmove => exact .inr (.inl hmove)
  | call hcommand =>
    have hthread := h.2 _ (List.mem_append_right _ List.mem_cons_self)
    exact .inr (.inr ⟨_, _, (hthread _ _ _ (hrefl _) hcommand).1⟩)

/-- An invariant under which every thread starts safely holds at every moment, and the state moves
along `rely` from any moment to any later one. -/
theorem Pool.Run.invariant (inv : S → Prop) (own : ∀ {β : Type}, C β → S → S → Prop)
    (htrans : ∀ s₁ s₂ s₃, rely s₁ s₂ → rely s₂ s₃ → rely s₁ s₃)
    (hrefl : ∀ s, rely s s)
    (henv : ∀ s s', inv s → env s s' → rely s s' ∧ inv s')
    (hown : ∀ {β : Type} (command : C β) s s', inv s → own command s s' → rely s s' ∧ inv s')
    (hspawn : ∀ prog s, inv s → spawn s prog → Safe sem rely own (fun _ _ => True) prog s)
    (hstart : inv start) (h : Pool.Run sem spawn env start pool)
    (hlater : Relation.ReflTransGen (Pool.Step sem spawn env) pool pool') :
    inv pool.shared ∧ rely pool.shared pool'.shared := by
  have hstarted : Pool.Sound sem rely own inv (⟨[], start⟩ : Pool C α S) := ⟨hstart, nofun⟩
  have hsound := (hstarted.run inv own htrans hrefl henv hown hspawn h).2
  exact ⟨hsound.1, (hsound.run inv own htrans hrefl henv hown hspawn hlater).1⟩

def Pool.Issues (allowed : ∀ {β : Type}, C β → Prop) (pool : Pool C α S) : Prop :=
  ∀ prog ∈ pool.threads, prog.Issues allowed

theorem Pool.Issues.step {allowed : ∀ {β : Type}, C β → Prop} (inv : S → Prop)
    (hspawn : ∀ s prog, spawn s prog → prog.Issues allowed)
    (henv : ∀ s s', inv s → env s s' → inv s')
    (hcall : ∀ {β : Type} (command : C β) s reply s', allowed command → inv s →
      sem command s reply s' → inv s')
    (h : pool.Issues allowed) (hinv : inv pool.shared)
    (hstep : Pool.Step sem spawn env pool pool') : pool'.Issues allowed ∧ inv pool'.shared := by
  cases hstep with
  | spawn hprog => exact ⟨List.forall_mem_cons.mpr ⟨hspawn _ _ hprog, h⟩, hinv⟩
  | env hmove => exact ⟨h, henv _ _ hinv hmove⟩
  | call hcommand =>
    have hthread := h _ (List.mem_append_right _ List.mem_cons_self)
    refine ⟨fun prog hmem => ?_, hcall _ _ _ _ hthread.1 hinv hcommand⟩
    rcases List.mem_append.mp hmem with hmem | hmem
    · exact h _ (List.mem_append_left _ hmem)
    · rcases List.mem_cons.mp hmem with rfl | hmem
      · exact hthread.2 _
      · exact h _ (List.mem_append_right _ (List.mem_cons_of_mem _ hmem))

theorem Pool.Issues.run {allowed : ∀ {β : Type}, C β → Prop} (inv : S → Prop)
    (hspawn : ∀ s prog, spawn s prog → prog.Issues allowed)
    (henv : ∀ s s', inv s → env s s' → inv s')
    (hcall : ∀ {β : Type} (command : C β) s reply s', allowed command → inv s →
      sem command s reply s' → inv s')
    (h : pool.Issues allowed) (hinv : inv pool.shared)
    (hrun : Relation.ReflTransGen (Pool.Step sem spawn env) pool pool') :
    pool'.Issues allowed ∧ inv pool'.shared := by
  induction hrun with
  | refl => exact ⟨h, hinv⟩
  | tail _ hstep ih => exact ih.1.step inv hspawn henv hcall ih.2 hstep

end Pools

/-! ## Credits -/

/-- Every command's gain goes to the credit of its thread, which keeps meeting `post`. -/
def Funded (sem : Semantics C S) (balance : S → Int) (post : α → Int → Prop) :
    Int → Program C α → Prop
  | credit, .ret value => post value credit
  | credit, .call command next => 0 ≤ credit ∧ ∀ s reply s', sem command s reply s' →
      Funded sem balance post (credit + (balance s' - balance s)) (next reply)

section Credits

variable {sem : Semantics C S} {balance : S → Int} {post post' : α → Int → Prop}
  {credit credit' : Int}

theorem Funded.weaken {prog : Program C α} (h : Funded sem balance post credit prog)
    (hpost : ∀ value credit, post value credit → post' value credit) :
    Funded sem balance post' credit prog := by
  induction prog generalizing credit with
  | ret value => exact hpost _ _ h
  | call command next ih =>
    exact ⟨h.1, fun s reply s' hstep => ih reply (h.2 s reply s' hstep)⟩

theorem Funded.bind {prog : Program C α} {f : α → Program C β} {post : β → Int → Prop}
    (h : Funded sem balance (fun value credit => Funded sem balance post credit (f value))
      credit prog) :
    Funded sem balance post credit (prog >>= f) := by
  induction prog generalizing credit with
  | ret value => exact h
  | call command next ih =>
    exact ⟨h.1, fun s reply s' hstep => ih reply (h.2 s reply s' hstep)⟩

theorem Funded.then {prog : Raising C ε α} {f : α → Raising C ε β}
    {middle : Except ε α → Int → Prop} {post : Except ε β → Int → Prop}
    (h : Funded sem balance middle credit prog.run)
    (hok : ∀ value credit, middle (.ok value) credit →
      Funded sem balance post credit (f value).run)
    (herror : ∀ error credit, middle (.error error) credit → post (.error error) credit) :
    Funded sem balance post credit (prog >>= f).run := by
  refine Funded.bind (h.weaken ?_)
  rintro (error | value) credit hmiddle
  · exact herror error credit hmiddle
  · exact hok value credit hmiddle

theorem Funded.send {E : Type} {C : Type → Type} {sem : Semantics (Remote E C) S}
    {balance : S → Int} {credit : Int} {raised : E → ε} {command : C α}
    {post : Except ε α → Int → Prop} (hcredit : 0 ≤ credit)
    (h : ∀ s reply s', sem (.send command) s reply s' →
      post (reply.mapError raised) (credit + (balance s' - balance s))) :
    Funded sem balance post credit (Program.send raised command).run :=
  ⟨hcredit, h⟩

theorem Funded.more {prog : Program C α}
    (h : Funded sem balance (fun _ credit => 0 ≤ credit) credit prog) (hle : credit ≤ credit') :
    Funded sem balance (fun _ credit => 0 ≤ credit) credit' prog := by
  induction prog generalizing credit credit' with
  | ret value => exact Int.le_trans h hle
  | call command next ih =>
    refine ⟨Int.le_trans h.1 hle, fun s reply s' hstep => ?_⟩
    exact ih reply (h.2 s reply s' hstep) (Int.add_le_add_right hle _)

theorem Issues.funded {allowed : ∀ {β : Type}, C β → Prop} {prog : Program C α}
    (h : prog.Issues allowed)
    (hfree : ∀ {β : Type} (command : C β) s reply s', allowed command → sem command s reply s' →
      balance s ≤ balance s')
    (hcredit : 0 ≤ credit) : Funded sem balance (fun _ credit => 0 ≤ credit) credit prog := by
  induction prog generalizing credit with
  | ret value => exact hcredit
  | call command next ih =>
    refine ⟨hcredit, fun s reply s' hstep => ih reply (h.2 reply) ?_⟩
    have hle := hfree command s reply s' h.1 hstep
    omega

def Pool.Covered (sem : Semantics C S) (balance : S → Int) (pool : Pool C α S) : Prop :=
  ∃ credits : List Int,
    List.Forall₂ (fun credit prog => Funded sem balance (fun _ credit => 0 ≤ credit) credit prog)
      credits pool.threads ∧ credits.sum ≤ balance pool.shared

theorem Funded.nonneg {prog : Program C α}
    (h : Funded sem balance (fun _ credit => 0 ≤ credit) credit prog) : 0 ≤ credit := by
  cases prog with
  | ret value => exact h
  | call command next => exact h.1

theorem forall₂_middle {K : Type v} {R : K → Program C α → Prop} {credits : List K}
    {before after : List (Program C α)} {prog : Program C α}
    (h : List.Forall₂ R credits (before ++ prog :: after)) :
    ∃ front credit back, credits = front ++ credit :: back ∧ List.Forall₂ R front before ∧
      R credit prog ∧ List.Forall₂ R back after := by
  induction before generalizing credits with
  | nil =>
    cases h with
    | cons hfirst hrest => exact ⟨[], _, _, rfl, .nil, hfirst, hrest⟩
  | cons first before ih =>
    cases h with
    | cons hfirst hrest =>
      obtain ⟨front, credit, back, rfl, hfront, hmiddle, hback⟩ := ih hrest
      exact ⟨_ :: front, credit, back, rfl, .cons hfirst hfront, hmiddle, hback⟩

theorem forall₂_append {K : Type v} {R : K → Program C α → Prop} {front back : List K}
    {before after : List (Program C α)} (hfront : List.Forall₂ R front before)
    (hback : List.Forall₂ R back after) : List.Forall₂ R (front ++ back) (before ++ after) := by
  induction hfront with
  | nil => exact hback
  | cons hfirst _ ih => exact .cons hfirst ih

theorem Pool.Covered.step {spawn : S → Program C α → Prop} {env : S → S → Prop}
    {pool pool' : Pool C α S} (henv : ∀ s s', env s s' → balance s ≤ balance s')
    (hspawn : ∀ s prog, spawn s prog → Funded sem balance (fun _ credit => 0 ≤ credit) 0 prog)
    (h : Pool.Covered sem balance pool) (hstep : Pool.Step sem spawn env pool pool') :
    Pool.Covered sem balance pool' := by
  obtain ⟨credits, hthreads, hsum⟩ := h
  cases hstep with
  | spawn hprog =>
    refine ⟨0 :: credits, .cons (hspawn _ _ hprog) hthreads, ?_⟩
    rw [List.sum_cons, Int.zero_add]
    exact hsum
  | env hmove => exact ⟨credits, hthreads, Int.le_trans hsum (henv _ _ hmove)⟩
  | @call before after γ command next reply s s' hcommand =>
    obtain ⟨front, credit, back, rfl, hfront, hthread, hback⟩ := forall₂_middle hthreads
    refine ⟨front ++ (credit + (balance s' - balance s)) :: back,
      forall₂_append hfront (.cons (hthread.2 _ _ _ hcommand) hback), ?_⟩
    simp only [List.sum_append, List.sum_cons] at hsum ⊢
    omega

theorem sum_nonneg {credits : List Int} {threads : List (Program C α)}
    (h : List.Forall₂ (fun credit prog =>
      Funded sem balance (fun _ credit => 0 ≤ credit) credit prog) credits threads) :
    0 ≤ credits.sum := by
  induction h with
  | nil => exact Int.le_refl 0
  | cons hfirst _ ih =>
    rw [List.sum_cons]
    exact Int.add_nonneg hfirst.nonneg ih

theorem Pool.Covered.nonneg {pool : Pool C α S} (h : Pool.Covered sem balance pool) :
    0 ≤ balance pool.shared := by
  obtain ⟨credits, hthreads, hsum⟩ := h
  exact Int.le_trans (sum_nonneg hthreads) hsum

theorem Pool.Run.covered {spawn : S → Program C α → Prop} {env : S → S → Prop} {start : S}
    {pool : Pool C α S} (henv : ∀ s s', env s s' → balance s ≤ balance s')
    (hspawn : ∀ s prog, spawn s prog → Funded sem balance (fun _ credit => 0 ≤ credit) 0 prog)
    (hstart : 0 ≤ balance start) (h : Pool.Run sem spawn env start pool) :
    0 ≤ balance pool.shared := by
  have hcovered : Pool.Covered sem balance pool := by
    induction h with
    | refl => exact ⟨[], .nil, hstart⟩
    | tail _ hstep ih => exact ih.step henv hspawn hstep
  exact hcovered.nonneg

end Credits

/-! ## Holdings -/

section Holdings

variable {H : Type v}

/-- A thread holds something. Whatever the others hold, its next command takes a state that goes
with all holdings to one that goes with its new holding, and so on to the end. -/
def Holds (sem : Semantics C S) (inv : List H → S → Prop) (post : α → H → Prop) :
    H → Program C α → Prop
  | h, .ret value => post value h
  | h, .call command next => ∀ others s reply s', inv (h :: others) s → sem command s reply s' →
      ∃ h', inv (h' :: others) s' ∧ Holds sem inv post h' (next reply)

variable {sem : Semantics C S} {inv : List H → S → Prop} {h : H}

theorem Holds.mono {prog : Program C α} {post post' : α → H → Prop}
    (hprog : Holds sem inv post h prog) (hpost : ∀ value h, post value h → post' value h) :
    Holds sem inv post' h prog := by
  induction prog generalizing h with
  | ret value => exact hpost _ _ hprog
  | call command next ih =>
    intro others s reply s' hinv hstep
    obtain ⟨h', hinv', hnext⟩ := hprog others s reply s' hinv hstep
    exact ⟨h', hinv', ih reply hnext⟩

theorem Holds.bind {prog : Program C α} {f : α → Program C β} {post : β → H → Prop}
    (hprog : Holds sem inv (fun value h => Holds sem inv post h (f value)) h prog) :
    Holds sem inv post h (prog >>= f) := by
  induction prog generalizing h with
  | ret value => exact hprog
  | call command next ih =>
    intro others s reply s' hinv hstep
    obtain ⟨h', hinv', hnext⟩ := hprog others s reply s' hinv hstep
    exact ⟨h', hinv', ih reply hnext⟩

theorem Holds.then {prog : Program C α} {f : α → Program C β} {middle : α → H → Prop}
    {post : β → H → Prop} (hprog : Holds sem inv middle h prog)
    (hnext : ∀ value h, middle value h → Holds sem inv post h (f value)) :
    Holds sem inv post h (prog >>= f) := Holds.bind (hprog.mono hnext)

theorem Holds.issue_bind {command : C β} {f : β → Program C α} {post : α → H → Prop}
    (hcommand : ∀ others s reply s', inv (h :: others) s → sem command s reply s' →
      ∃ h', inv (h' :: others) s' ∧ Holds sem inv post h' (f reply)) :
    Holds sem inv post h (issue command >>= f) := hcommand

theorem Holds.issue {command : C α} {post : α → H → Prop}
    (hcommand : ∀ others s reply s', inv (h :: others) s → sem command s reply s' →
      ∃ h', inv (h' :: others) s' ∧ post reply h') :
    Holds sem inv post h (Program.issue command) := hcommand

theorem Holds.raising_then {prog : Raising C ε α} {f : α → Raising C ε β}
    {post : Except ε β → H → Prop} (middle : Except ε α → H → Prop)
    (hprog : Holds sem inv middle h prog.run)
    (hok : ∀ value h, middle (.ok value) h → Holds sem inv post h (f value).run)
    (herror : ∀ error h, middle (.error error) h → post (.error error) h) :
    Holds sem inv post h (prog >>= f).run := by
  refine Holds.bind (hprog.mono ?_)
  rintro (error | value) h hmiddle
  · exact herror error h hmiddle
  · exact hok value h hmiddle

theorem Holds.attempt_then {prog : Raising C ε α} {f : Except ε α → Raising C ε β}
    {middle : Except ε α → H → Prop} {post : Except ε β → H → Prop}
    (hprog : Holds sem inv middle h prog.run)
    (hnext : ∀ outcome h, middle outcome h → Holds sem inv post h (f outcome).run) :
    Holds sem inv post h (attempt prog >>= f).run := by
  refine Holds.raising_then (fun outcome h => ∃ value, outcome = .ok value ∧
    middle value h) (Holds.bind (hprog.mono fun outcome h hmiddle => ⟨outcome, rfl, hmiddle⟩)) ?_ ?_
  · rintro value h ⟨outcome, hsame, hmiddle⟩
    obtain rfl := Except.ok.inj hsame
    exact hnext value h hmiddle
  · rintro error h ⟨_, hne, -⟩
    cases hne

theorem Holds.send {E : Type} {C : Type → Type}
    {sem : Semantics (Remote E C) S} {inv : List H → S → Prop} {h : H} {raised : E → ε}
    {command : C α} {post : Except ε α → H → Prop}
    (hcommand : ∀ others s (reply : Except E α) s', inv (h :: others) s →
      sem (.send command) s reply s' →
        ∃ h', inv (h' :: others) s' ∧ post (reply.mapError raised) h') :
    Holds sem inv post h (Program.send raised command).run := hcommand

theorem Holds.forEach {body : β → Program C Unit} {items : List β} {post : H → Prop} (hh : post h)
    (hbody : ∀ item ∈ items, ∀ h, post h → Holds sem inv (fun _ h => post h) h (body item)) :
    Holds sem inv (fun _ h => post h) h (forEach body items) := by
  induction items generalizing h with
  | nil => exact hh
  | cons item items ih =>
    refine (hbody item List.mem_cons_self h hh).then fun _ h hpost => ?_
    exact ih hpost fun item hitem => hbody item (List.mem_cons_of_mem _ hitem)

def Pool.Held (sem : Semantics C S) (inv : List H → S → Prop) (pool : Pool C α S) : Prop :=
  ∃ holdings, List.Forall₂ (fun h prog => Holds sem inv (fun _ _ => True) h prog)
    holdings pool.threads ∧ inv holdings pool.shared

variable {spawn : S → Program C α → Prop} {env : S → S → Prop} {start : S}
  {pool pool' : Pool C α S}

section

variable (hperm : ∀ hs hs' s, hs.Perm hs' → inv hs s → inv hs' s)

include hperm

section

variable (hspawn : ∀ hs s prog, inv hs s → spawn s prog → ∃ h, Holds sem inv (fun _ _ => True) h
  prog ∧ inv (h :: hs) s)

include hspawn

section

variable (henv : ∀ hs s s', inv hs s → env s s' → inv hs s')

include henv

theorem Pool.Held.step (hpool : pool.Held sem inv) (hstep : Pool.Step sem spawn env pool pool') :
    pool'.Held sem inv := by
  obtain ⟨holdings, hthreads, hinv⟩ := hpool
  cases hstep with
  | spawn hprog =>
    obtain ⟨h, hholds, hinv'⟩ := hspawn _ _ _ hinv hprog
    exact ⟨h :: holdings, .cons hholds hthreads, hinv'⟩
  | env hmove => exact ⟨holdings, hthreads, henv _ _ _ hinv hmove⟩
  | call hcommand =>
    obtain ⟨front, h, back, rfl, hfront, hthread, hback⟩ := forall₂_middle hthreads
    obtain ⟨h', hinv', hnext⟩ :=
      hthread (front ++ back) _ _ _ (hperm _ _ _ List.perm_middle hinv) hcommand
    exact ⟨front ++ h' :: back, forall₂_append hfront (.cons hnext hback),
      hperm _ _ _ List.perm_middle.symm hinv'⟩

theorem Pool.Held.steps (hpool : pool.Held sem inv)
    (hsteps : Relation.ReflTransGen (Pool.Step sem spawn env) pool pool') : pool'.Held sem inv := by
  induction hsteps with
  | refl => exact hpool
  | tail _ hstep ih => exact ih.step hperm hspawn henv hstep

theorem Pool.Run.held (hstart : inv [] start) (hrun : Pool.Run sem spawn env start pool) :
    pool.Held sem inv :=
  Pool.Held.steps hperm hspawn henv ⟨[], .nil, hstart⟩ hrun

end

end

end

end Holdings

/-! ## Evaluation -/

def eval (answer : ∀ {β : Type}, C β → S → β × S) : Program C α → S → α × S
  | .ret value, s => (value, s)
  | .call command next, s => (next (answer command s).1).eval answer (answer command s).2

variable {change : S → S}

section Evaluation

variable {answer : ∀ {β : Type}, C β → S → β × S}

@[simp] theorem eval_ret (value : α) (s : S) :
    (.ret value : Program C α).eval answer s = (value, s) := rfl

@[simp] theorem eval_call {command : C β} {next : β → Program C α} (s : S) :
    (Program.call command next).eval answer s =
      (next (answer command s).1).eval answer (answer command s).2 := rfl

theorem eval_bind (prog : Program C α) (f : α → Program C β) (s : S) :
    (prog >>= f).eval answer s =
      (f (prog.eval answer s).1).eval answer (prog.eval answer s).2 := by
  induction prog generalizing s with
  | ret value => rfl
  | call command next ih => exact ih _ _

@[simp] theorem eval_issue (command : C α) (s : S) :
    (issue command).eval answer s = answer command s := rfl

@[simp] theorem eval_issue_bind (command : C β) (f : β → Program C α) (s : S) :
    (issue command >>= f).eval answer s =
      (f (answer command s).1).eval answer (answer command s).2 := rfl

theorem eval_forEach_cons (body : β → Program C Unit) (item : β) (items : List β) (s : S) :
    (forEach body (item :: items)).eval answer s =
      (forEach body items).eval answer ((body item).eval answer s).2 := eval_bind _ _ s

theorem eval_raising_bind (prog : Raising C ε α) (f : α → Raising C ε β) (s : S) :
    (prog >>= f).run.eval answer s =
      (ExceptT.bindCont f (prog.run.eval answer s).1).eval answer (prog.run.eval answer s).2 :=
  eval_bind prog.run (ExceptT.bindCont f) s

/-- A program run to its end, with one change of the state from outside after its first commands. -/
def disturbed (answer : ∀ {β : Type}, C β → S → β × S) (change : S → S) (n : Nat)
    (prog : Program C α) (s : S) : α × S :=
  (advance answer n prog s).1.eval answer (change (advance answer n prog s).2)

@[simp] theorem disturbed_zero (prog : Program C α) (s : S) :
    disturbed answer change 0 prog s = prog.eval answer (change s) := rfl

@[simp] theorem disturbed_issue_bind {n : Nat} (command : C β) (f : β → Program C α) (s : S) :
    disturbed answer change (n + 1) (issue command >>= f) s =
      disturbed answer change n (f (answer command s).1) (answer command s).2 := rfl

@[simp] theorem disturbed_issue {n : Nat} (command : C α) (s : S) :
    disturbed answer change (n + 1) (issue command) s =
      ((answer command s).1, change (answer command s).2) := by
  cases n <;> rfl

theorem reach_eval {sem : Semantics C S} {rely : S → S → Prop}
    (h : ∀ {β : Type} (command : C β) (s : S), sem command s (answer command s).1
      (answer command s).2)
    (prog : Program C α) (s : S) :
    Reach sem rely prog s (.ret (prog.eval answer s).1) (prog.eval answer s).2 := by
  induction prog generalizing s with
  | ret value => exact .refl
  | call command next ih => exact .head (h command s) (ih _ _)

theorem reach_eval_arriving {sem : Semantics C S} {rely : S → S → Prop}
    {arrive : ∀ {β : Type}, C β → S → S}
    (hrely : ∀ {β : Type} (command : C β) (s : S), rely s (arrive command s))
    (h : ∀ {β : Type} (command : C β) (s : S), sem command s (answer command s).1
      (answer command s).2)
    (prog : Program C α) (s : S) :
    Reach sem rely prog s
      (.ret (prog.eval (fun command s => answer command (arrive command s)) s).1)
      (prog.eval (fun command s => answer command (arrive command s)) s).2 := by
  induction prog generalizing s with
  | ret value => exact .refl
  | call command next ih => exact .after (hrely command s) (.head (h command _) (ih _ _))

def isCall : Program C α → Bool
  | .ret _ => false
  | .call _ _ => true

theorem turn_advance {sem : Semantics C S}
    (h : ∀ {β : Type} (command : C β) (s : S), sem command s (answer command s).1
      (answer command s).2)
    {prog : Program C α} (hcall : prog.isCall = true) (s : S) :
    Turn sem prog s (advance answer 1 prog s).1 (advance answer 1 prog s).2 := by
  cases prog with
  | ret value => cases hcall
  | call command next => exact .call (h command s)

theorem eval_bind_ok {prog : Raising C ε α} {f : α → Raising C ε β} {value : α} {s s' : S}
    (h : prog.run.eval answer s = (.ok value, s')) :
    (prog >>= f).run.eval answer s = (f value).run.eval answer s' := by
  rw [eval_raising_bind, h]
  rfl

theorem eval_bind_error {prog : Raising C ε α} {f : α → Raising C ε β} {error : ε} {s s' : S}
    (h : prog.run.eval answer s = (.error error, s')) :
    (prog >>= f).run.eval answer s = (.error error, s') := by
  rw [eval_raising_bind, h]
  rfl

theorem eval_attempt_bind {prog : Raising C ε α} {f : Except ε α → Raising C ε β}
    {outcome : Except ε α} {s s' : S} (h : prog.run.eval answer s = (outcome, s')) :
    (attempt prog >>= f).run.eval answer s = (f outcome).run.eval answer s' := by
  have hattempt : (attempt prog).run.eval answer s = (.ok outcome, s') := by
    rw [attempt, ExceptT.run_mk, eval_bind, h]
    rfl
  exact eval_bind_ok hattempt

end Evaluation

/-! ## Schedules -/

def Pool.turn (answer : ∀ {β : Type}, C β → S → β × S) (i : Nat) (pool : Pool C α S) :
    Pool C α S :=
  match pool.threads[i]? with
  | some (.call command next) =>
    ⟨pool.threads.set i (next (answer command pool.shared).1), (answer command pool.shared).2⟩
  | _ => pool

def Pool.turnPasses (check : ∀ {β : Type}, C β → S → Bool) (i : Nat) (pool : Pool C α S) : Bool :=
  match pool.threads[i]? with
  | some (.call command _) => check command pool.shared
  | _ => true

def Pool.turns (answer : ∀ {β : Type}, C β → S → β × S) (order : List Nat) (pool : Pool C α S) :
    Pool C α S :=
  order.foldl (fun pool i => pool.turn answer i) pool

def Pool.turnsPass (answer : ∀ {β : Type}, C β → S → β × S)
    (check : ∀ {β : Type}, C β → S → Bool) : List Nat → Pool C α S → Bool
  | [], _ => true
  | i :: order, pool => pool.turnPasses check i && turnsPass answer check order (pool.turn answer i)

section Schedules

variable {sem : Semantics C S} {spawn : S → Program C α → Prop} {env : S → S → Prop}
  {answer : ∀ {β : Type}, C β → S → β × S}

theorem Pool.turn_run (check : ∀ {β : Type}, C β → S → Bool)
    (h : ∀ {β : Type} (command : C β) (s : S), check command s = true →
      sem command s (answer command s).1 (answer command s).2)
    (i : Nat) (pool : Pool C α S) (hcheck : pool.turnPasses check i = true) :
    Relation.ReflTransGen (Pool.Step sem spawn env) pool (pool.turn answer i) := by
  unfold turnPasses at hcheck
  unfold turn
  split
  · next command next hthread =>
    rw [hthread] at hcheck
    obtain ⟨hi, hget⟩ := List.getElem?_eq_some_iff.mp hthread
    have hsplit : pool.threads =
        pool.threads.take i ++ .call command next :: pool.threads.drop (i + 1) := by
      rw [← hget, List.getElem_cons_drop, List.take_append_drop]
    have hset : pool.threads.set i (next (answer command pool.shared).1) =
        pool.threads.take i ++ next (answer command pool.shared).1 :: pool.threads.drop
          (i + 1) := by
      rw [List.set_eq_take_append_cons_drop, if_pos hi]
    have hstep : Pool.Step sem spawn env
        ⟨pool.threads.take i ++ .call command next :: pool.threads.drop (i + 1), pool.shared⟩
        ⟨pool.threads.take i ++ next (answer command pool.shared).1 :: pool.threads.drop (i + 1),
          (answer command pool.shared).2⟩ := .call (h command pool.shared hcheck)
    rw [← hsplit, ← hset] at hstep
    exact .single hstep
  · exact .refl

theorem Pool.turns_run (check : ∀ {β : Type}, C β → S → Bool)
    (h : ∀ {β : Type} (command : C β) (s : S), check command s = true →
      sem command s (answer command s).1 (answer command s).2)
    (order : List Nat) (pool : Pool C α S) (hcheck : pool.turnsPass answer check order = true) :
    Relation.ReflTransGen (Pool.Step sem spawn env) pool (pool.turns answer order) := by
  induction order generalizing pool with
  | nil => exact .refl
  | cons i order ih =>
    obtain ⟨hfirst, hrest⟩ := Bool.and_eq_true_iff.mp hcheck
    exact (turn_run check h i pool hfirst).trans (ih _ hrest)

@[simp] theorem Pool.turnsPass_true (order : List Nat) (pool : Pool C α S) :
    pool.turnsPass answer (fun _ _ => true) order = true := by
  induction order generalizing pool with
  | nil => rfl
  | cons i order ih =>
    rw [Pool.turnsPass, ih, Bool.and_true, Pool.turnPasses]
    split <;> rfl

theorem Pool.turns_reach
    (h : ∀ {β : Type} (command : C β) (s : S), sem command s (answer command s).1
      (answer command s).2)
    (order : List Nat) (pool : Pool C α S) :
    Relation.ReflTransGen (Pool.Step sem spawn env) pool (pool.turns answer order) :=
  turns_run (fun _ _ => true) (fun command s _ => h command s) order pool
    (turnsPass_true order pool)

end Schedules

/-! ## Journals -/

structure Labelled (L : Type) (C : Type → Type 1) (β : Type) : Type 1 where
  label : L
  command : C β

def labelled {L : Type} (label : L) : Program C α → Program (Labelled L C) α
  | .ret value => .ret value
  | .call command next => .call ⟨label, command⟩ (fun reply => labelled label (next reply))

structure Event (L : Type) (S : Type u) where
  label : L
  before : S
  after : S

structure Journaled (L : Type) (S : Type u) where
  state : S
  events : List (Event L S)

def Labelled.semantics {L : Type} (sem : Semantics C S) :
    Semantics (Labelled L C) (Journaled L S) := fun command j reply j' =>
  sem command.command j.state reply j'.state ∧
    j'.events = ⟨command.label, j.state, j'.state⟩ :: j.events

def Labelled.answer {L : Type} (answer : ∀ {β : Type}, C β → S → β × S) {β : Type}
    (command : Labelled L C β) (j : Journaled L S) : β × Journaled L S :=
  let (reply, after) := answer command.command j.state
  (reply, ⟨after, ⟨command.label, j.state, after⟩ :: j.events⟩)

def Journaled.Outside {L : Type} (env : S → S → Prop) (j j' : Journaled L S) : Prop :=
  env j.state j'.state ∧ j'.events = j.events

def under {L : Type} (label : L) (sem : Semantics (Labelled L C) S) : Semantics C S :=
  fun command s reply s' => sem ⟨label, command⟩ s reply s'

variable {L : Type} {label : L}

theorem Funded.labelled {sem : Semantics (Labelled L C) S} {balance : S → Int}
    {post : α → Int → Prop} {credit : Int} {prog : Program C α}
    (h : Funded (under label sem) balance post credit prog) :
    Funded sem balance post credit (prog.labelled label) := by
  induction prog generalizing credit with
  | ret value => exact h
  | call command next ih => exact ⟨h.1, fun s reply s' hstep => ih reply (h.2 s reply s' hstep)⟩

theorem Holds.labelled {H : Type v} {sem : Semantics (Labelled L C) S} {inv : List H → S → Prop}
    {post : α → H → Prop} {h : H} {prog : Program C α}
    (hprog : Holds (under label sem) inv post h prog) :
    Holds sem inv post h (prog.labelled label) := by
  induction prog generalizing h with
  | ret value => exact hprog
  | call command next ih =>
    intro others s reply s' hinv hstep
    obtain ⟨h', hinv', hnext⟩ := hprog others s reply s' hinv hstep
    exact ⟨h', hinv', ih reply hnext⟩

theorem issues_label (label : L) (prog : Program C α) :
    (prog.labelled label).Issues fun command => command.label = label := by
  induction prog with
  | ret value => trivial
  | call command next ih => exact ⟨rfl, ih⟩

theorem Issues.labelled {allowed : ∀ {β : Type}, C β → Prop} {prog : Program C α}
    (h : prog.Issues allowed) :
    (prog.labelled label).Issues fun command =>
      command.label = label ∧ allowed command.command := by
  induction prog with
  | ret value => trivial
  | call command next ih => exact ⟨⟨rfl, h.1⟩, fun reply => ih reply (h.2 reply)⟩

/-! ## Commands among others -/

def hoist {C' : Type → Type 1} (f : ∀ {β : Type}, C β → C' β) : Program C α → Program C' α
  | .ret value => .ret value
  | .call command next => .call (f command) (fun reply => hoist f (next reply))

variable {C' : Type → Type 1}

theorem Issues.hoist {f : ∀ {β : Type}, C β → C' β} {allowed : ∀ {β : Type}, C β → Prop}
    {allowed' : ∀ {β : Type}, C' β → Prop} {prog : Program C α} (h : prog.Issues allowed)
    (hle : ∀ {β : Type} (command : C β), allowed command → allowed' (f command)) :
    (Program.hoist f prog).Issues allowed' := by
  induction prog with
  | ret value => trivial
  | call command next ih => exact ⟨hle command h.1, fun reply => ih reply (h.2 reply)⟩

theorem Safe.hoist {f : ∀ {β : Type}, C β → C' β} {sem : Semantics C S} {sem' : Semantics C' S}
    {rely : S → S → Prop} {own : ∀ {β : Type}, C β → S → S → Prop}
    {own' : ∀ {β : Type}, C' β → S → S → Prop} {post : α → S → Prop} {prog : Program C α} {s : S}
    (hsem : ∀ {β : Type} (command : C β) s reply s', sem' (f command) s reply s' →
      sem command s reply s')
    (hown : ∀ {β : Type} (command : C β) s s', own command s s' → own' (f command) s s')
    (h : Safe sem rely own post prog s) : Safe sem' rely own' post (Program.hoist f prog) s := by
  induction prog generalizing s with
  | ret value => exact h
  | call command next ih =>
    intro s₁ reply s₂ hrely hstep
    obtain ⟨hcommand, hnext⟩ := h s₁ reply s₂ hrely (hsem command s₁ reply s₂ hstep)
    exact ⟨hown command s₁ s₂ hcommand, ih reply hnext⟩

theorem Safe.lift {T : Type v} {f : ∀ {β : Type}, C β → C' β} (part : S → T) (ready : S → Prop)
    {sem : Semantics C T} {sem' : Semantics C' S} {rely : T → T → Prop} {rely' : S → S → Prop}
    {own : ∀ {β : Type}, C β → T → T → Prop} {own' : ∀ {β : Type}, C' β → S → S → Prop}
    {post : α → T → Prop} {prog : Program C α} {s : S}
    (hrely : ∀ s s', ready s → rely' s s' → ready s' ∧ rely (part s) (part s'))
    (hsem : ∀ {β : Type} (command : C β) s reply s', ready s → sem' (f command) s reply s' →
      ready s' ∧ sem command (part s) reply (part s') ∧
        (own command (part s) (part s') → own' (f command) s s'))
    (hready : ready s) (h : Safe sem rely own post prog (part s)) :
    Safe sem' rely' own' (fun _ _ => True) (Program.hoist f prog) s := by
  induction prog generalizing s with
  | ret value => trivial
  | call command next ih =>
    intro s₁ reply s₂ hmove hstep
    obtain ⟨hready₁, hmoved⟩ := hrely _ _ hready hmove
    obtain ⟨hready₂, hcommand, hown⟩ := hsem command s₁ reply s₂ hready₁ hstep
    obtain ⟨hallowed, hnext⟩ := h (part s₁) reply (part s₂) hmoved hcommand
    exact ⟨hown hallowed, ih reply hready₂ hnext⟩

theorem Issues.holds {H : Type v} {sem : Semantics C S} {inv : List H → S → Prop}
    {allowed : ∀ {β : Type}, C β → Prop} {post : α → H → Prop} {held : H} {prog : Program C α}
    (h : prog.Issues allowed)
    (hkeep : ∀ {β : Type} (command : C β) (others : List H) (s : S) (reply : β) (s' : S),
      allowed command → inv (held :: others) s → sem command s reply s' →
        inv (held :: others) s')
    (hpost : ∀ value, post value held) : Holds sem inv post held prog := by
  induction prog with
  | ret value => exact hpost value
  | call command next ih =>
    intro others s reply s' hinv hstep
    exact ⟨held, hkeep command others s reply s' h.1 hinv hstep, ih reply (h.2 reply)⟩

theorem Holds.hoist {H : Type v} {f : ∀ {β : Type}, C β → C' β} {sem : Semantics C' S}
    {inv : List H → S → Prop} {post : α → H → Prop} {h : H} {prog : Program C α}
    (hprog : Holds (fun command s reply s' => sem (f command) s reply s') inv post h prog) :
    Holds sem inv post h (Program.hoist f prog) := by
  induction prog generalizing h with
  | ret value => exact hprog
  | call command next ih =>
    intro others s reply s' hinv hstep
    obtain ⟨h', hinv', hnext⟩ := hprog others s reply s' hinv hstep
    exact ⟨h', hinv', ih reply hnext⟩

end Program
