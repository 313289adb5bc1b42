import Mathlib.Tactic

/-!
# Custody

A program takes things from a system and gives them back.  What is out at any time is held by one of its holders, or
is lost: nobody will give it back.

* `World`, `take`, `give`   the system, and its two calls;
* `Sound`, `Adds`           numbers are used once; what some calls have added;
* `Triple`                  **what a program adds**;
* `Account`                    what is out is held or lost, each thing once;
* `Account.join`, `Account.lose`, `Account.give`, `Account.put`   what is done to the account;
* `Balanced`, `Account.joined`, `Account.balanced_put`, `Account.balanced_give`   what a step keeps;
* `Account.run`, `run_account`      **what is lost by a whole run, and what is out when nobody holds anything**.
-/

namespace Custody

open scoped List

/-- a thing of some kind -/
structure Thing (κ : Type) where
  kind : κ
  number : Nat
deriving DecidableEq

/-- the things that were taken and not given back, and the number of the next one -/
structure World (κ : Type) where
  next : Nat
  out : List (Thing κ)

variable {κ σ : Type} [DecidableEq κ]

def World.start (κ : Type) : World κ := ⟨0, []⟩

/-- the thing that is taken next -/
def World.new (k : κ) (w : World κ) : Thing κ := ⟨k, w.next⟩

def World.take (k : κ) (w : World κ) : World κ := ⟨w.next + 1, w.out ++ [w.new k]⟩

def World.give (t : Thing κ) (w : World κ) : World κ := { w with out := w.out.erase t }

def World.giveAll (ts : List (Thing κ)) (w : World κ) : World κ := ts.foldl (fun w t => w.give t) w

/-- every thing has a number of its own, and it was given out before -/
structure World.Sound (w : World κ) : Prop where
  nodup : w.out.Nodup
  before : ∀ t ∈ w.out, t.number < w.next

omit [DecidableEq κ] in
theorem start_sound : (World.start κ).Sound := ⟨List.nodup_nil, fun _ ht => by cases ht⟩

/-- some calls have added these things -/
structure Adds (ts : List (Thing κ)) (w w' : World κ) : Prop where
  next : w.next ≤ w'.next
  out : w'.out = w.out ++ ts
  nodup : ts.Nodup
  fresh : ∀ t ∈ ts, w.next ≤ t.number ∧ t.number < w'.next

section
variable {w w' : World κ} {t : Thing κ} {ts : List (Thing κ)}

omit [DecidableEq κ] in
theorem Adds.none (w : World κ) : Adds [] w w :=
  ⟨le_refl _, (List.append_nil _).symm, List.nodup_nil, fun _ ht => by cases ht⟩

omit [DecidableEq κ] in
theorem Adds.take (h : Adds ts w w') (k : κ) : Adds (ts ++ [w'.new k]) w (w'.take k) := by
  refine ⟨h.next.trans (Nat.le_succ _), ?_, ?_, ?_⟩
  · rw [World.take, h.out, List.append_assoc]
  · rw [List.nodup_append_comm, List.singleton_append, List.nodup_cons]
    exact ⟨fun hmem => lt_irrefl w'.next (h.fresh _ hmem).2, h.nodup⟩
  · intro t ht
    rcases List.mem_append.mp ht with hold | hnew
    · exact ⟨(h.fresh t hold).1, (h.fresh t hold).2.trans (Nat.lt_succ_self _)⟩
    · rw [List.mem_singleton.mp hnew]
      exact ⟨h.next, Nat.lt_succ_self _⟩

theorem Adds.give (h : Adds ts w w') (hw : w.Sound) (ht : t ∈ ts) : Adds (ts.erase t) w (w'.give t) := by
  have hout : t ∉ w.out := fun hmem => absurd (hw.before t hmem) (h.fresh t ht).1.not_gt
  refine ⟨h.next, ?_, h.nodup.erase t, fun u hu => h.fresh u (List.mem_of_mem_erase hu)⟩
  rw [World.give, h.out, List.erase_append_right _ hout]

theorem Adds.giveAll {us : List (Thing κ)} (h : Adds ts w w') (hw : w.Sound) (hus : ts ~ us) :
    Adds [] w (w'.giveAll us) := by
  induction us generalizing ts w' with
  | nil =>
    rw [List.perm_nil.mp hus] at h
    exact h
  | cons u us ih =>
    refine ih (h.give hw (hus.mem_iff.mpr List.mem_cons_self)) ?_
    have herase := hus.erase u
    rwa [List.erase_cons_head] at herase

omit [DecidableEq κ] in
theorem Adds.sound (h : Adds ts w w') (hw : w.Sound) : w'.Sound := by
  refine ⟨?_, fun t ht => ?_⟩
  · rw [h.out, List.nodup_append]
    refine ⟨hw.nodup, h.nodup, fun t ht u hu => ?_⟩
    rintro rfl
    exact absurd (hw.before t ht) (h.fresh t hu).1.not_gt
  · rw [h.out, List.mem_append] at ht
    rcases ht with hold | hnew
    · exact (hw.before t hold).trans_le h.next
    · exact (h.fresh t hnew).2

theorem World.Sound.give (hw : w.Sound) (t : Thing κ) : (w.give t).Sound :=
  ⟨hw.nodup.erase t, fun u hu => hw.before u (List.mem_of_mem_erase hu)⟩

theorem World.Sound.giveAll (hw : w.Sound) (ts : List (Thing κ)) : (w.giveAll ts).Sound := by
  induction ts generalizing w with
  | nil => exact hw
  | cons t ts ih => exact ih (hw.give t)

theorem giveAll_out {rest : List (Thing κ)} (h : w.out ~ ts ++ rest) : (w.giveAll ts).out ~ rest := by
  induction ts generalizing w with
  | nil => exact h
  | cons t ts ih =>
    refine ih ?_
    have herase := h.erase t
    rwa [List.cons_append, List.erase_cons_head] at herase

end

/-! ## programs -/

section
variable {ε α β : Type} {w₀ : World κ} {ts : List (Thing κ)} {t : Thing κ}

/-- the call that takes a thing -/
def takes (k : κ) : EStateM ε (World κ) (Thing κ) := fun w => .ok (w.new k) (w.take k)

/-- the call that gives it back -/
def gives (t : Thing κ) : EStateM ε (World κ) Unit := fun w => .ok () (w.give t)

/-- a call of which both ends are looked at -/
def attempt {ε' : Type} (p : EStateM ε (World κ) α) : EStateM ε' (World κ) (Except ε α) := fun w =>
  match p w with
  | .ok a w => .ok (.ok a) w
  | .error e w => .ok (.error e) w

/-- **what a program has added, when it returns and when it fails**; before, `ts` have been added -/
def Triple (w₀ : World κ) (ts : List (Thing κ)) (p : EStateM ε (World κ) α) (Q : α → List (Thing κ) → Prop)
    (E : ε → List (Thing κ) → Prop) : Prop :=
  ∀ w, Adds ts w₀ w →
    match p w with
    | .ok a w' => ∃ ts', Adds ts' w₀ w' ∧ Q a ts'
    | .error e w' => ∃ ts', Adds ts' w₀ w' ∧ E e ts'

variable {p : EStateM ε (World κ) α} {f : α → EStateM ε (World κ) β} {Q : α → List (Thing κ) → Prop}
  {R : β → List (Thing κ) → Prop} {E : ε → List (Thing κ) → Prop}

omit [DecidableEq κ] in
theorem Triple.pure {a : α} (h : Q a ts) : Triple w₀ ts (pure a) Q E := fun _ hadds => ⟨ts, hadds, h⟩

omit [DecidableEq κ] in
theorem Triple.throw {e : ε} (h : E e ts) : Triple w₀ ts (throw e) Q E := fun _ hadds => ⟨ts, hadds, h⟩

omit [DecidableEq κ] in
theorem Triple.bind (hp : Triple w₀ ts p Q E) (hf : ∀ a ts', Q a ts' → Triple w₀ ts' (f a) R E) :
    Triple w₀ ts (p >>= f) R E := by
  intro w hadds
  have hfirst := hp w hadds
  show match EStateM.bind p f w with
    | .ok a w' => ∃ ts', Adds ts' w₀ w' ∧ R a ts'
    | .error e w' => ∃ ts', Adds ts' w₀ w' ∧ E e ts'
  unfold EStateM.bind
  cases hrun : p w with
  | ok a w₁ =>
    rw [hrun] at hfirst
    obtain ⟨ts₁, hadds₁, hq⟩ := hfirst
    exact hf a ts₁ hq w₁ hadds₁
  | error e w₁ =>
    rw [hrun] at hfirst
    exact hfirst

omit [DecidableEq κ] in
theorem Triple.mono {E' : ε → List (Thing κ) → Prop} (hp : Triple w₀ ts p Q E) (hE : ∀ e ts', E e ts' → E' e ts') :
    Triple w₀ ts p Q E' := by
  intro w hadds
  have hrun := hp w hadds
  cases hcall : p w with
  | ok a w₁ => rwa [hcall] at hrun
  | error e w₁ =>
    rw [hcall] at hrun
    obtain ⟨ts₁, hadds₁, he⟩ := hrun
    exact ⟨ts₁, hadds₁, hE e ts₁ he⟩

/-- what has been added at either end -/
def either (Q : α → List (Thing κ) → Prop) (E : ε → List (Thing κ) → Prop) : Except ε α → List (Thing κ) → Prop
  | .ok a => Q a
  | .error e => E e

omit [DecidableEq κ] in
theorem Triple.attempt {ε' : Type} {g : Except ε α → EStateM ε' (World κ) β} {E' : ε' → List (Thing κ) → Prop}
    (hp : Triple w₀ ts p Q E) (hok : ∀ a ts', Q a ts' → Triple w₀ ts' (g (.ok a)) R E')
    (herror : ∀ e ts', E e ts' → Triple w₀ ts' (g (.error e)) R E') : Triple w₀ ts (attempt p >>= g) R E' := by
  refine Triple.bind (Q := either Q E) ?_ ?_
  · intro w hadds
    have hrun := hp w hadds
    unfold Custody.attempt
    cases hcall : p w with
    | ok a w₁ => rwa [hcall] at hrun
    | error e w₁ => rwa [hcall] at hrun
  · intro r ts' hr
    cases r with
    | ok a => exact hok a ts' hr
    | error e => exact herror e ts' hr

omit [DecidableEq κ] in
/-- a call that leaves the system as it is -/
theorem Triple.skip {a : α} (hp : ∀ w, p w = .ok a w) (hf : Triple w₀ ts (f a) R E) :
    Triple w₀ ts (p >>= f) R E := by
  refine Triple.bind (Q := fun b ts' => b = a ∧ ts' = ts) (fun w hadds => ?_) ?_
  · rw [hp w]
    exact ⟨ts, hadds, rfl, rfl⟩
  · rintro b ts' ⟨rfl, rfl⟩
    exact hf

omit [DecidableEq κ] in
/-- a call that fails, and leaves the system as it is -/
theorem Triple.fail {e : ε} (hp : ∀ w, p w = .error e w) (he : E e ts) : Triple w₀ ts (p >>= f) R E := by
  refine Triple.bind (Q := fun _ _ => False) (fun w hadds => ?_) fun a ts' hfalse => hfalse.elim
  rw [hp w]
  exact ⟨ts, hadds, he⟩

omit [DecidableEq κ] in
theorem Triple.takes {k : κ} {f : Thing κ → EStateM ε (World κ) β}
    (hf : ∀ t, t.kind = k → Triple w₀ (ts ++ [t]) (f t) R E) : Triple w₀ ts (takes k >>= f) R E := by
  intro w hadds
  exact hf (w.new k) rfl _ (hadds.take k)

/-- a call that gives everything back -/
theorem Triple.givesAll {us : List (Thing κ)} {f : Unit → EStateM ε (World κ) β} {p : EStateM ε (World κ) Unit}
    (hw : w₀.Sound) (hp : ∀ w, p w = .ok () (w.giveAll us)) (hus : ts ~ us) (hf : Triple w₀ [] (f ()) R E) :
    Triple w₀ ts (p >>= f) R E := by
  refine Triple.bind (Q := fun _ ts' => ts' = []) (fun w hadds => ?_) ?_
  · rw [hp w]
    exact ⟨[], hadds.giveAll hw hus, rfl⟩
  · rintro ⟨⟩ ts' rfl
    exact hf

theorem Triple.gives {f : Unit → EStateM ε (World κ) β} (hw : w₀.Sound) (ht : t ∈ ts)
    (hf : Triple w₀ (ts.erase t) (f ()) R E) : Triple w₀ ts (gives t >>= f) R E := by
  intro w hadds
  exact hf _ (hadds.give hw ht)

end

/-! ## the account -/

/-- **what is out is held by one of the holders, or is lost** -/
structure Account (owns : σ → List (Thing κ)) (w : World κ) (lost : List (Thing κ)) (holders : List σ) : Prop where
  sound : w.Sound
  perm : w.out ~ lost ++ holders.flatMap owns

section
variable {owns : σ → List (Thing κ)} {w w' : World κ} {lost ts : List (Thing κ)} {holders : List σ} {s s' : σ}
  {t : Thing κ} {i : Nat}

omit [DecidableEq κ] in
theorem start_account (owns : σ → List (Thing κ)) : Account owns (World.start κ) [] [] := ⟨start_sound, .refl _⟩

omit [DecidableEq κ] in
/-- a new holder has some of what was added, and the rest is lost -/
theorem Account.join {more : List (Thing κ)} (h : Account owns w lost holders) (hadds : Adds ts w w')
    (hts : ts ~ owns s ++ more) : Account owns w' (lost ++ more) (holders ++ [s]) := by
  refine ⟨hadds.sound h.sound, ?_⟩
  rw [hadds.out, List.flatMap_append, List.flatMap_singleton]
  calc w.out ++ ts
      ~ (lost ++ holders.flatMap owns) ++ (owns s ++ more) := h.perm.append hts
    _ ~ (lost ++ holders.flatMap owns) ++ (more ++ owns s) := List.perm_append_comm.append_left _
    _ ~ (lost ++ more) ++ (holders.flatMap owns ++ owns s) := by
      rw [List.append_assoc, List.append_assoc]
      exact (List.perm_append_comm_assoc _ _ _).append_left lost

omit [DecidableEq κ] in
/-- what was added is lost -/
theorem Account.lose {more : List (Thing κ)} (h : Account owns w lost holders) (hadds : Adds more w w') :
    Account owns w' (lost ++ more) holders := by
  refine ⟨hadds.sound h.sound, ?_⟩
  rw [hadds.out]
  calc w.out ++ more
      ~ (lost ++ holders.flatMap owns) ++ more := h.perm.append_right more
    _ ~ (lost ++ more) ++ holders.flatMap owns := by
      rw [List.append_assoc, List.append_assoc]
      exact List.perm_append_comm.append_left lost

omit [DecidableEq κ] in
theorem flatMap_set (owns : σ → List (Thing κ)) (hi : holders[i]? = some s) (s' : σ) :
    owns s ++ (holders.set i s').flatMap owns ~ owns s' ++ holders.flatMap owns := by
  induction holders generalizing i with
  | nil => cases hi
  | cons a rest ih =>
    cases i with
    | zero =>
      cases hi
      rw [List.set_cons_zero, List.flatMap_cons, List.flatMap_cons, ← List.append_assoc, ← List.append_assoc]
      exact List.perm_append_comm.append_right _
    | succ i =>
      rw [List.set_cons_succ, List.flatMap_cons, List.flatMap_cons]
      calc owns s ++ (owns a ++ (rest.set i s').flatMap owns)
          ~ owns a ++ (owns s ++ (rest.set i s').flatMap owns) := List.perm_append_comm_assoc _ _ _
        _ ~ owns a ++ (owns s' ++ rest.flatMap owns) := (ih hi).append_left _
        _ ~ owns s' ++ (owns a ++ rest.flatMap owns) := List.perm_append_comm_assoc _ _ _

omit [DecidableEq κ] in
/-- a holder changes, and holds what it has held -/
theorem Account.put (h : Account owns w lost holders) (hi : holders[i]? = some s) (hs : owns s' = owns s) :
    Account owns w lost (holders.set i s') := by
  refine ⟨h.sound, h.perm.trans (List.Perm.append_left lost ?_)⟩
  have hset := flatMap_set owns hi s'
  rw [hs] at hset
  exact ((List.perm_append_left_iff _).mp hset).symm

/-- a holder gives all that it has back -/
theorem Account.give (h : Account owns w lost holders) (hi : holders[i]? = some s) (hs' : owns s' = []) :
    Account owns (w.giveAll (owns s)) lost (holders.set i s') := by
  refine ⟨h.sound.giveAll _, giveAll_out ?_⟩
  have hset := flatMap_set owns hi s'
  rw [hs', List.nil_append] at hset
  calc w.out
      ~ lost ++ holders.flatMap owns := h.perm
    _ ~ lost ++ (owns s ++ (holders.set i s').flatMap owns) := hset.symm.append_left lost
    _ ~ owns s ++ (lost ++ (holders.set i s').flatMap owns) := List.perm_append_comm_assoc _ _ _

omit [DecidableEq κ] in
/-- **when nobody holds anything, what is out is lost** -/
theorem Account.ended (h : Account owns w lost holders) (hnone : ∀ s ∈ holders, owns s = []) : w.out ~ lost := by
  have hempty : holders.flatMap owns = [] := List.flatMap_eq_nil_iff.mpr hnone
  have hperm := h.perm
  rwa [hempty, List.append_nil] at hperm

end

/-! ## steps -/

section
variable {owns : σ → List (Thing κ)} {P : σ → Prop} {w : World κ} {lost : List (Thing κ)} {kinds : List κ}
  {holders : List σ} {s s' : σ} {i : Nat}

/-- **what a step keeps**: the holders are as they have to be, and so is the account; what is lost more is of these
kinds -/
def Balanced (owns : σ → List (Thing κ)) (P : σ → Prop) (lost : List (Thing κ)) (kinds : List κ)
    (st : World κ × List σ) : Prop :=
  (∀ s ∈ st.2, P s) ∧ ∃ more, Account owns st.1 (lost ++ more) st.2 ∧ more.map Thing.kind = kinds

/-- a program that makes a holder; there is none when it fails -/
def joined {ε α : Type} (f : α → σ) (p : EStateM ε (World κ) α) (st : World κ × List σ) : World κ × List σ :=
  match p st.1 with
  | .ok a w => (w, st.2 ++ [f a])
  | .error _ w => (w, st.2)

/-- it adds what the holder has, and what is lost -/
def Makes {ε α : Type} (owns : σ → List (Thing κ)) (P : σ → Prop) (f : α → σ) (w : World κ)
    (p : EStateM ε (World κ) α) (kinds : List κ) : Prop :=
  Triple w [] p (fun a ts => P (f a) ∧ ∃ more, ts ~ owns (f a) ++ more ∧ more.map Thing.kind = kinds)
    fun _ ts => ts.map Thing.kind = kinds

omit [DecidableEq κ] in
theorem Account.joined {ε α : Type} {f : α → σ} {p : EStateM ε (World κ) α} (h : Account owns w lost holders)
    (hall : ∀ s ∈ holders, P s) (hp : Makes owns P f w p kinds) :
    Balanced owns P lost kinds (joined f p (w, holders)) := by
  have hrun := hp w (Adds.none w)
  unfold Custody.joined
  dsimp only
  cases hcall : p w with
  | ok a w₁ =>
    rw [hcall] at hrun
    obtain ⟨ts, hadds, ha, more, hts, hkinds⟩ := hrun
    refine ⟨fun s hs => ?_, more, h.join hadds hts, hkinds⟩
    rcases List.mem_append.mp hs with hold | hnew
    · exact hall s hold
    · rw [List.mem_singleton.mp hnew]
      exact ha
  | error e w₁ =>
    rw [hcall] at hrun
    obtain ⟨ts, hadds, hkinds⟩ := hrun
    exact ⟨hall, ts, h.lose hadds, hkinds⟩

theorem all_set (hall : ∀ s ∈ holders, P s) (hs' : P s') (i : Nat) : ∀ s ∈ holders.set i s', P s := by
  intro s hs
  rcases List.mem_or_eq_of_mem_set hs with hold | rfl
  · exact hall s hold
  · exact hs'

omit [DecidableEq κ] in
theorem Account.balanced_put (h : Account owns w lost holders) (hall : ∀ s ∈ holders, P s) (hi : holders[i]? = some s)
    (hs' : P s') (howns : owns s' = owns s) : Balanced owns P lost [] (w, holders.set i s') :=
  ⟨all_set hall hs' i, [], by rw [List.append_nil]; exact h.put hi howns, rfl⟩

theorem Account.balanced_give (h : Account owns w lost holders) (hall : ∀ s ∈ holders, P s) (hi : holders[i]? = some s)
    (hs' : P s') (howns : owns s' = []) : Balanced owns P lost [] (w.giveAll (owns s), holders.set i s') :=
  ⟨all_set hall hs' i, [], by rw [List.append_nil]; exact h.give hi howns, rfl⟩

omit [DecidableEq κ] in
/-- what a whole run loses, if every step keeps the account -/
theorem Account.run {α : Type} {step : World κ × List σ → α → Option (World κ × List σ)} {loses : α → List κ}
    (hstep : ∀ {w ss lost a st}, Account owns w lost ss → (∀ s ∈ ss, P s) → step (w, ss) a = some st →
      Balanced owns P lost (loses a) st)
    {acts : List α} {st st' : World κ × List σ} (h : Account owns st.1 lost st.2) (hall : ∀ s ∈ st.2, P s)
    (hrun : acts.foldlM step st = some st') : Balanced owns P lost (acts.flatMap loses) st' := by
  induction acts generalizing st lost with
  | nil =>
    cases hrun
    exact ⟨hall, [], by rwa [List.append_nil], rfl⟩
  | cons a acts ih =>
    rw [List.foldlM_cons] at hrun
    obtain ⟨st₁, hfirst, hrun⟩ := Option.bind_eq_some_iff.mp hrun
    obtain ⟨hall₁, more₁, h₁, hmore₁⟩ := hstep h hall hfirst
    obtain ⟨hall₂, more₂, h₂, hmore₂⟩ := ih h₁ hall₁ hrun
    refine ⟨hall₂, more₁ ++ more₂, by rwa [← List.append_assoc], ?_⟩
    rw [List.map_append, hmore₁, hmore₂, List.flatMap_cons]

omit [DecidableEq κ] in
/-- **the account at the end of a run from the start** -/
theorem run_account {α : Type} {step : World κ × List σ → α → Option (World κ × List σ)} {loses : α → List κ}
    (hstep : ∀ {w ss lost a st}, Account owns w lost ss → (∀ s ∈ ss, P s) → step (w, ss) a = some st →
      Balanced owns P lost (loses a) st)
    {acts : List α} (hrun : acts.foldlM step (World.start κ, []) = some (w, holders)) :
    (∀ s ∈ holders, P s) ∧ ∃ left, w.out ~ left ++ holders.flatMap owns ∧ w.out.Nodup ∧
      left.map Thing.kind = acts.flatMap loses ∧ ((∀ s ∈ holders, owns s = []) → w.out ~ left) := by
  have hnone : ∀ s ∈ ([] : List σ), P s := fun s hs => by cases hs
  obtain ⟨hall, left, haccount, hleft⟩ := Account.run hstep (start_account owns) hnone hrun
  exact ⟨hall, left, haccount.perm, haccount.sound.nodup, hleft, haccount.ended⟩

end

end Custody
