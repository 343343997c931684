import AiBuddy.Misc.Program

/-!
# Commands that another one has to follow

A command may leave a debt that the very next command of the same program pays. In a pool every
debt that the state shows is then one of a thread that has come to paying it.
-/

namespace Program

variable {C : Type → Type 1} {α β ε T : Type}

def Next (here : ∀ {β : Type}, C β → Prop) : Program C α → Prop
  | .ret _ => False
  | .call command _ => here command

theorem Next.bind {here : ∀ {β : Type}, C β → Prop} {prog : Program C α} {f : α → Program C β}
    (h : prog.Next here) : (prog >>= f).Next here := by
  cases prog with
  | ret value => exact h.elim
  | call command next => exact h

def Prompt (leaves : ∀ {β : Type}, C β → β → T → Prop) (pays : T → ∀ {β : Type}, C β → Prop) :
    Program C α → Prop
  | .ret _ => True
  | .call command next => ∀ reply,
      (∀ debt, leaves command reply debt → (next reply).Next (pays debt)) ∧
        Prompt leaves pays (next reply)

section Prompt

variable {leaves : ∀ {β : Type}, C β → β → T → Prop} {pays : T → ∀ {β : Type}, C β → Prop}

theorem Prompt.bind {prog : Program C α} {f : α → Program C β} (h : prog.Prompt leaves pays)
    (hnext : ∀ value, (f value).Prompt leaves pays) : (prog >>= f).Prompt leaves pays := by
  induction prog with
  | ret value => exact hnext value
  | call command next ih =>
    intro reply
    obtain ⟨hdebts, hrest⟩ := h reply
    exact ⟨fun debt hdebt => (hdebts debt hdebt).bind, ih reply hrest⟩

theorem Prompt.raising_bind {prog : Raising C ε α} {f : α → Raising C ε β}
    (h : prog.run.Prompt leaves pays) (hnext : ∀ value, (f value).run.Prompt leaves pays) :
    (prog >>= f).run.Prompt leaves pays := by
  refine Prompt.bind h ?_
  rintro (error | value)
  · trivial
  · exact hnext value

theorem Prompt.send {E : Type} {C : Type → Type}
    {leaves : ∀ {β : Type}, Remote E C β → β → T → Prop}
    {pays : T → ∀ {β : Type}, Remote E C β → Prop} {raised : E → ε} {command : C α}
    (h : ∀ reply debt, ¬ leaves (.send command) reply debt) :
    (Program.send raised command).run.Prompt leaves pays :=
  fun reply => ⟨fun debt hdebt => absurd hdebt (h reply debt), trivial⟩

theorem Prompt.send_then {E : Type} {C : Type → Type}
    {leaves : ∀ {β : Type}, Remote E C β → β → T → Prop}
    {pays : T → ∀ {β : Type}, Remote E C β → Prop} {raised : E → ε} {command : C α}
    {f : α → Raising (Remote E C) ε β}
    (herror : ∀ error debt, ¬ leaves (.send command) (.error error) debt)
    (hpays : ∀ value debt, leaves (.send command) (.ok value) debt →
      (f value).run.Next (pays debt))
    (hnext : ∀ value, (f value).run.Prompt leaves pays) :
    (Program.send raised command >>= f).run.Prompt leaves pays := by
  rintro (error | value)
  · exact ⟨fun debt hdebt => absurd hdebt (herror error debt), trivial⟩
  · exact ⟨fun debt hdebt => hpays value debt hdebt, hnext value⟩

end Prompt

def Pool.Owes {S : Type} (pays : T → ∀ {β : Type}, C β → Prop) (debt : T) (pool : Pool C α S) :
    Prop :=
  ∃ prog ∈ pool.threads, prog.Next (pays debt)

section Pools

variable {S : Type} {sem : Semantics C S} {spawn : S → Program C α → Prop} {env : S → S → Prop}
  {start : S} {leaves : ∀ {β : Type}, C β → β → T → Prop}
  {pays : T → ∀ {β : Type}, C β → Prop} {pool pool' : Pool C α S}

theorem Pool.Owes.step {owed : T → S → Prop}
    (hspawn : ∀ s prog, spawn s prog → prog.Prompt leaves pays)
    (henv : ∀ s s' debt, env s s' → owed debt s' → owed debt s)
    (hcall : ∀ {β : Type} (command : C β) s reply s' debt, sem command s reply s' →
      owed debt s' → leaves command reply debt ∨ owed debt s ∧ ¬ pays debt command)
    (hprompt : ∀ prog ∈ pool.threads, prog.Prompt leaves pays)
    (howes : ∀ debt, owed debt pool.shared → pool.Owes pays debt)
    (hstep : Pool.Step sem spawn env pool pool') :
    (∀ prog ∈ pool'.threads, prog.Prompt leaves pays) ∧
      ∀ debt, owed debt pool'.shared → pool'.Owes pays debt := by
  cases hstep with
  | spawn hprog =>
    refine ⟨List.forall_mem_cons.mpr ⟨hspawn _ _ hprog, hprompt⟩, fun debt howed => ?_⟩
    obtain ⟨prog, hmem, hnext⟩ := howes debt howed
    exact ⟨prog, List.mem_cons_of_mem _ hmem, hnext⟩
  | env hmove =>
    refine ⟨hprompt, fun debt howed => ?_⟩
    exact howes debt (henv _ _ debt hmove howed)
  | @call before after γ command next reply s s' hcommand =>
    have hthread := hprompt _ (List.mem_append_right _ List.mem_cons_self) reply
    refine ⟨fun prog hmem => ?_, fun debt howed => ?_⟩
    · rcases List.mem_append.mp hmem with hmem | hmem
      · exact hprompt _ (List.mem_append_left _ hmem)
      · rcases List.mem_cons.mp hmem with rfl | hmem
        · exact hthread.2
        · exact hprompt _ (List.mem_append_right _ (List.mem_cons_of_mem _ hmem))
    · rcases hcall command s reply s' debt hcommand howed with hleaves | ⟨howed', hpays⟩
      · exact ⟨_, List.mem_append_right _ List.mem_cons_self, hthread.1 debt hleaves⟩
      · -- another thread owes it, since this one has not paid
        obtain ⟨prog, hmem, hnext⟩ := howes debt howed'
        rcases List.mem_append.mp hmem with hmem | hmem
        · exact ⟨prog, List.mem_append_left _ hmem, hnext⟩
        · rcases List.mem_cons.mp hmem with rfl | hmem
          · exact absurd hnext hpays
          · exact ⟨prog, List.mem_append_right _ (List.mem_cons_of_mem _ hmem), hnext⟩

theorem Pool.Run.owes {owed : T → S → Prop}
    (hspawn : ∀ s prog, spawn s prog → prog.Prompt leaves pays)
    (henv : ∀ s s' debt, env s s' → owed debt s' → owed debt s)
    (hcall : ∀ {β : Type} (command : C β) s reply s' debt, sem command s reply s' →
      owed debt s' → leaves command reply debt ∨ owed debt s ∧ ¬ pays debt command)
    (hstart : ∀ debt, ¬ owed debt start) (h : Pool.Run sem spawn env start pool) :
    ∀ debt, owed debt pool.shared → pool.Owes pays debt := by
  have hboth : (∀ prog ∈ pool.threads, prog.Prompt leaves pays) ∧
      ∀ debt, owed debt pool.shared → pool.Owes pays debt := by
    induction h with
    | refl => exact ⟨nofun, fun debt howed => absurd howed (hstart debt)⟩
    | tail _ hstep ih => exact Pool.Owes.step hspawn henv hcall ih.1 ih.2 hstep
  exact hboth.2

theorem Pool.Run.keeps {inv : S → Prop} (henv : ∀ s s', inv s → env s s' → inv s')
    (hcall : ∀ {β : Type} (command : C β) s reply s', inv s → sem command s reply s' → inv s')
    (hstart : inv start) (h : Pool.Run sem spawn env start pool) : inv pool.shared := by
  induction h with
  | refl => exact hstart
  | tail _ hstep ih =>
    cases hstep with
    | spawn hprog => exact ih
    | env hmove => exact henv _ _ ih hmove
    | call hcommand => exact hcall _ _ _ _ ih hcommand

end Pools

end Program
