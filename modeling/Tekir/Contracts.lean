import Mathlib.Data.List.Pairwise
import Tekir.Bookkeeping

/-!
# Rules for interleaved calls

A contract says what each call asks, commits and returns; it is checked call by call
against arbitrary interference. A law says what holds of the committed database and what
each open call may rely on; it is checked part by part, for the call that moves and for
those that stand by. Both then hold in every state of every run.
-/
namespace Tekir.Contracts
open Machine Programs Interleaving Bookkeeping

variable {B W Q ε O α : Type} {R : Q → Type} {n : ℕ}

/-- What a call started by an operation asks, commits and returns. -/
structure Contract (W Q : Type) (R : Q → Type) (ε O α : Type) where
  asks : O → Local W Q R ε → Q → Prop := fun _ _ _ => True
  commits : O → Local W Q R ε → Prop := fun _ _ => True
  returns : O → Local W Q R ε → α → Prop := fun _ _ _ => True

def Contract.Met (C : Contract W Q R ε O α) (E : Engine B W Q R ε)
    (program : O → Prog Q R ε α) : Prop :=
  ∀ o, (program o).Meets E (C.asks o) (C.commits o) (C.returns o) {}

/-- What both contracts say. -/
def Contract.and (C C' : Contract W Q R ε O α) : Contract W Q R ε O α where
  asks o l q := C.asks o l q ∧ C'.asks o l q
  commits o l := C.commits o l ∧ C'.commits o l
  returns o l a := C.returns o l a ∧ C'.returns o l a

theorem Contract.Met.and {C C' : Contract W Q R ε O α} {E : Engine B W Q R ε}
    {program : O → Prog Q R ε α} (h : C.Met E program) (h' : C'.Met E program) :
    (C.and C').Met E program :=
  fun o => (h o).and (h' o)

/-- The contract holds of every open call, of every commit and of every result. -/
structure Conforms (C : Contract W Q R ε O α) (E : Engine B W Q R ε)
    (s : State B W Q R ε O α n) : Prop where
  calls : ∀ i c, s.calls i = some c →
    c.prog.Meets E (C.asks c.op) (C.commits c.op) (C.returns c.op) c.loc
  history : ∀ e ∈ s.history, ∀ a ∈ e.author, C.commits a.2 e.loc
  log : ∀ d ∈ s.log, C.returns d.op d.loc d.result

/-- Two open transactions hold no clashing writes. -/
def Apart (E : Engine B W Q R ε) (s : State B W Q R ε O α n) : Prop :=
  ∀ i j, i ≠ j → ∀ c d, s.calls i = some c → s.calls j = some d →
    ∀ w ∈ c.loc.writes, ∀ w' ∈ d.loc.writes, E.clash w w' = false

/-- `I` is kept by the database and its history, `K` by a call, open or finished: its ticket and
operation, the history, the database, the snapshot of its statement, and what it has done. -/
structure Law (C : Contract W Q R ε O α) (E : Engine B W Q R ε)
    (I : List (Commit B W Q R ε O) → B → Prop)
    (K : ℕ → O → List (Commit B W Q R ε O) → B → Option B → Local W Q R ε → Prop) : Prop where
  start : ∀ t o h b, (∀ c ∈ h, ¬ By t c) → I h b → K t o h b none {}
  began : ∀ t o h b l v, I h b → K t o h b none l → E.view l.writes b = some v →
    K t o h b (some v) l
  answered : ∀ t o h b l q v₀ v, I h b → K t o h b (some v₀) l → l.aborted = false →
    E.view l.writes b = some v → C.asks o l q →
    K t o h b none (l.ask E q (E.answer q v₀ v) (E.effect q v₀ v))
  lost : ∀ t o h b s l q, K t o h b s l → E.fails = true ∨ l.aborted = true →
    K t o h b none (l.ask E q (.error E.lost) [])
  dropped : ∀ t o h b s l, K t o h b s l → K t o h b none l.drop
  kept : ∀ t o h b s l b', I h b → K t o h b s l → C.commits o l → E.view l.writes b = some b' →
    I (h ++ [{ author := some (t, o), loc := l, base := b, next := b' }]) b'
  published : ∀ t o h b s l b', I h b → K t o h b s l → C.commits o l →
    E.view l.writes b = some b' →
    K t o (h ++ [{ author := some (t, o), loc := l, base := b, next := b' }]) b' none l.publish
  stable : ∀ t o h b s l b' t' o' s' l', t ≠ t' → I h b → K t o h b s l → C.commits o l →
    E.view l.writes b = some b' → K t' o' h b s' l' →
    (∀ w ∈ l.writes, ∀ w' ∈ l'.writes, E.clash w w' = false) →
    K t' o' (h ++ [{ author := some (t, o), loc := l, base := b, next := b' }]) b' s' l'
  foreign : ∀ ws h b b', I h b → E.foreign ws b b' = true →
    I (h ++ [{ author := none, base := b, next := b' }]) b'
  foreign_stable : ∀ ws h b b' t o s l, I h b → K t o h b s l → E.foreign ws b b' = true →
    (∀ w ∈ l.writes, w ∈ ws) → K t o (h ++ [{ author := none, base := b, next := b' }]) b' s l

/-- Everything a contract and a law say of a state. -/
structure Governed (C : Contract W Q R ε O α) (E : Engine B W Q R ε)
    (I : List (Commit B W Q R ε O) → B → Prop)
    (K : ℕ → O → List (Commit B W Q R ε O) → B → Option B → Local W Q R ε → Prop)
    (s : State B W Q R ε O α n) : Prop extends Conforms C E s where
  books : Books s
  apart : Apart E s
  base : I s.history s.base
  relies : ∀ i c, s.calls i = some c → K c.ticket c.op s.history s.base c.snapshot c.loc
  done : ∀ d ∈ s.log, K d.ticket d.op s.history s.base none d.loc.drop

variable {C : Contract W Q R ε O α} {E : Engine B W Q R ε} {program : O → Prog Q R ε α}
  {I : List (Commit B W Q R ε O) → B → Prop}
  {K : ℕ → O → List (Commit B W Q R ε O) → B → Option B → Local W Q R ε → Prop}
  {s s' : State B W Q R ε O α n} {a : Action B O n} {i : Fin n} {c : Call B W Q R ε O α}

section Calls

variable {calls : Fin n → Option (Call B W Q R ε O α)}

/-- What holds of the call that moved and of those that stand by holds of all. -/
theorem forall_update {P : Call B W Q R ε O α → Prop} {c' : Call B W Q R ε O α} (hc' : P c')
    (h : ∀ j, j ≠ i → ∀ d, calls j = some d → P d) :
    ∀ j d, Function.update calls i (some c') j = some d → P d := by
  intro j d hd
  by_cases hj : j = i
  · subst hj
    obtain rfl : c' = d := by simpa using hd
    exact hc'
  · rw [Function.update_of_ne hj] at hd
    exact h j hj d hd

theorem forall_update_none {P : Call B W Q R ε O α → Prop}
    (h : ∀ j, j ≠ i → ∀ d, calls j = some d → P d) :
    ∀ j d, Function.update calls i none j = some d → P d := by
  intro j d hd
  by_cases hj : j = i
  · subst hj
    simp at hd
  · rw [Function.update_of_ne hj] at hd
    exact h j hj d hd

theorem mem_held {w : W} : w ∈ s.held ↔ ∃ j c, s.calls j = some c ∧ w ∈ c.loc.writes := by
  simp only [State.held, List.mem_flatMap, List.mem_finRange, true_and]
  constructor
  · rintro ⟨j, hw⟩
    cases hc : s.calls j with
    | none => simp [hc] at hw
    | some c => exact ⟨j, c, hc, by simpa [hc] using hw⟩
  · rintro ⟨j, c, hc, hw⟩
    exact ⟨j, by simpa [hc] using hw⟩

end Calls

theorem Conforms.step (hC : C.Met E program) (h : Conforms C E s) (hs : Step E program s a s') :
    Conforms C E s' := by
  cases hs with
  | called i op idle =>
    exact { h with calls := forall_update (hC op) fun j _ => h.calls j }
  | returned i c a hc hprog =>
    have hpost := h.calls i c hc
    rw [hprog] at hpost
    refine { h with calls := forall_update_none fun j _ => h.calls j, log := fun d hd => ?_ }
    rcases List.mem_append.mp hd with hd | hd
    · exact h.log d hd
    · cases List.mem_singleton.mp hd
      exact hpost
  | dropped i c next hc hprog ha =>
    have hpost := h.calls i c hc
    refine { h with calls := forall_update ?_ fun j _ => h.calls j }
    rcases hprog with hprog | ⟨k, hprog, rfl, hlost⟩
    · rw [hprog] at hpost
      exact hpost
    · rw [hprog] at hpost
      exact hpost.2 hlost
  | committed i c k b hc hprog hlive hview =>
    have hpost := h.calls i c hc
    rw [hprog] at hpost
    obtain ⟨hcommit, hnext⟩ := hpost.1 hlive
    refine { h with calls := forall_update hnext fun j _ => h.calls j, history := fun e he => ?_ }
    rcases List.mem_append.mp he with he | he
    · exact h.history e he
    · cases List.mem_singleton.mp he
      intro a ha
      cases ha
      exact hcommit
  | began i c q k b hc hprog hlive hsnapshot hview =>
    exact { h with calls := forall_update (h.calls i c hc) fun j _ => h.calls j }
  | answered i c q k b₀ b hc hprog hlive hsnapshot hview hfree =>
    have hpost := h.calls i c hc
    rw [hprog] at hpost
    exact { h with calls := forall_update ((hpost.1 hlive).2 b₀ b) fun j _ => h.calls j }
  | lost i c q k hc hprog hlost ha =>
    have hpost := h.calls i c hc
    rw [hprog] at hpost
    exact { h with calls := forall_update (hpost.2 hlost) fun j _ => h.calls j }
  | others b hforeign =>
    refine { h with history := fun e he => ?_ }
    rcases List.mem_append.mp he with he | he
    · exact h.history e he
    · cases List.mem_singleton.mp he
      intro a ha
      cases ha

theorem Conforms.exec (hC : C.Met E program) (hidle : Idle s) {as : List (Action B O n)}
    (h : exec (Interleaving.step E program) s as = some s') : Conforms C E s' := by
  refine exec_induct (fun _ _ _ ht hstep => ht.step hC (step_cases hstep)) ⟨fun i c hc => ?_, ?_, ?_⟩ h
  · simp [hidle.calls i] at hc
  · simp [hidle.history]
  · simp [hidle.log]

/-- A call that moves without taking new locks stays apart from the others. -/
theorem Apart.update {c' : Call B W Q R ε O α} {s' : State B W Q R ε O α n}
    (h : Apart E s) (hcalls : s'.calls = Function.update s.calls i (some c'))
    (hnew : ∀ j, j ≠ i → ∀ d, s.calls j = some d → ∀ w ∈ d.loc.writes, ∀ w' ∈ c'.loc.writes,
      E.clash w w' = false) : Apart E s' := by
  intro j k hjk c d hc hd w hw w' hw'
  rw [hcalls] at hc hd
  by_cases hj : j = i
  · subst hj
    rw [Function.update_of_ne (Ne.symm hjk)] at hd
    obtain rfl : c' = c := by simpa using hc
    rw [E.clash_symm]
    exact hnew k (Ne.symm hjk) d hd w' hw' w hw
  · rw [Function.update_of_ne hj] at hc
    by_cases hk : k = i
    · subst hk
      obtain rfl : c' = d := by simpa using hd
      exact hnew j hj c hc w hw w' hw'
    · rw [Function.update_of_ne hk] at hd
      exact h j k hjk c d hc hd w hw w' hw'

theorem Apart.step (h : Apart E s) (hs : Step E program s a s') : Apart E s' := by
  cases hs with
  | called i op idle => exact h.update rfl fun j _ d _ w _ w' hw' => by cases hw'
  | returned i c a hc hprog =>
    intro j k hjk c d hc hd
    refine h j k hjk c d ?_ ?_
    · by_cases hj : j = i
      · subst hj
        simp [State.put] at hc
      · simpa [State.put, Function.update_of_ne hj] using hc
    · by_cases hk : k = i
      · subst hk
        simp [State.put] at hd
      · simpa [State.put, Function.update_of_ne hk] using hd
  | dropped i c next hc hprog ha => exact h.update rfl fun j _ d _ w _ w' hw' => by cases hw'
  | committed i c k b hc hprog hlive hview =>
    exact h.update rfl fun j _ d _ w _ w' hw' => by cases hw'
  | began i c q k b hc hprog hlive hsnapshot hview =>
    exact h.update rfl fun j hj d hd w hw w' hw' => h j i hj d c hd hc w hw w' hw'
  | answered i c q k b₀ b hc hprog hlive hsnapshot hview hfree =>
    refine h.update rfl fun j hj d hd w hw w' hw' => ?_
    rcases List.mem_append.mp hw' with hw' | hw'
    · exact h j i hj d c hd hc w hw w' hw'
    · exact free_iff.mp hfree j hj d hd w hw w' hw'
  | lost i c q k hc hprog hlost ha =>
    refine h.update rfl fun j hj d hd w hw w' hw' => ?_
    rw [Call.asked, Local.ask_writes, List.append_nil] at hw'
    exact h j i hj d c hd hc w hw w' hw'
  | others b hforeign => exact h

/-- One step keeps whatever the contract and the law say. -/
theorem Governed.step (hC : C.Met E program) (L : Law C E I K) (h : Governed C E I K s)
    (hs : Step E program s a s') : Governed C E I K s' := by
  have hconforms := h.toConforms.step hC hs
  have hbooks := h.books.step hs
  have hapart := h.apart.step hs
  cases hs with
  | called i op idle =>
    exact ⟨hconforms, hbooks, hapart, h.base,
      forall_update (L.start _ op _ _ h.books.fresh_ticket h.base) fun j _ => h.relies j, h.done⟩
  | returned i c a hc hprog =>
    refine ⟨hconforms, hbooks, hapart, h.base, forall_update_none fun j _ => h.relies j, fun d hd => ?_⟩
    rcases List.mem_append.mp hd with hd | hd
    · exact h.done d hd
    · cases List.mem_singleton.mp hd
      exact L.dropped _ _ _ _ _ _ (h.relies i c hc)
  | dropped i c next hc hprog ha =>
    exact ⟨hconforms, hbooks, hapart, h.base,
      forall_update (L.dropped _ _ _ _ _ _ (h.relies i c hc)) fun j _ => h.relies j, h.done⟩
  | committed i c k b hc hprog hlive hview =>
    have hcommits : C.commits c.op c.loc := by
      have hmeets := h.calls i c hc
      rw [hprog] at hmeets
      exact (hmeets.1 hlive).1
    have hK := h.relies i c hc
    refine ⟨hconforms, hbooks, hapart, L.kept _ _ _ _ _ _ _ h.base hK hcommits hview, forall_update ?_ ?_,
      fun d hd => ?_⟩
    · exact L.published _ _ _ _ _ _ _ h.base hK hcommits hview
    · intro j hj d hd
      exact L.stable _ _ _ _ _ _ _ _ _ _ _ (fun ht => hj (h.books.apart i j c d hc hd ht).symm)
        h.base hK hcommits hview (h.relies j d hd) (h.apart i j (Ne.symm hj) c d hc hd)
    · refine L.stable _ _ _ _ _ _ _ _ _ _ _ (Ne.symm (h.books.done i c hc d hd)) h.base hK hcommits
        hview (h.done d hd) ?_
      intro w _ w' hw'
      cases hw'
  | began i c q k b hc hprog hlive hsnapshot hview =>
    have hK := h.relies i c hc
    rw [hsnapshot] at hK
    exact ⟨hconforms, hbooks, hapart, h.base,
      forall_update (L.began _ _ _ _ _ _ h.base hK hview) fun j _ => h.relies j, h.done⟩
  | answered i c q k b₀ b hc hprog hlive hsnapshot hview hfree =>
    have hasks : C.asks c.op c.loc q := by
      have hmeets := h.calls i c hc
      rw [hprog] at hmeets
      exact (hmeets.1 hlive).1
    have hK := h.relies i c hc
    rw [hsnapshot] at hK
    exact ⟨hconforms, hbooks, hapart, h.base,
      forall_update (L.answered _ _ _ _ _ _ _ _ h.base hK hlive hview hasks) fun j _ => h.relies j,
      h.done⟩
  | lost i c q k hc hprog hlost ha =>
    exact ⟨hconforms, hbooks, hapart, h.base,
      forall_update (L.lost _ _ _ _ _ _ _ (h.relies i c hc) hlost) fun j _ => h.relies j, h.done⟩
  | others b hforeign =>
    refine ⟨hconforms, hbooks, hapart, L.foreign _ _ _ _ h.base hforeign, fun j d hd => ?_, fun d hd => ?_⟩
    · exact L.foreign_stable _ _ _ _ _ _ _ _ h.base (h.relies j d hd) hforeign fun w hw =>
        mem_held.mpr ⟨j, d, hd, hw⟩
    · refine L.foreign_stable _ _ _ _ _ _ _ _ h.base (h.done d hd) hforeign fun w hw => ?_
      cases hw

theorem Governed.exec (hC : C.Met E program) (L : Law C E I K) {as : List (Action B O n)}
    (hs : Governed C E I K s) (h : exec (Interleaving.step E program) s as = some s') :
    Governed C E I K s' :=
  exec_induct (fun _ _ _ ht hstep => ht.step hC L (step_cases hstep)) hs h

theorem Governed.of_idle (hidle : Idle s) (hbase : I [] s.base) : Governed C E I K s := by
  refine ⟨⟨fun i c hc => ?_, ?_, ?_⟩, .of_idle hidle, fun i j _ c d hc => ?_, hidle.history ▸ hbase,
    fun i c hc => ?_, ?_⟩
  · simp [hidle.calls i] at hc
  · simp [hidle.history]
  · simp [hidle.log]
  · simp [hidle.calls i] at hc
  · simp [hidle.calls i] at hc
  · simp [hidle.log]

/-- A law about calls that start later can be taken up in the middle of a run. -/
theorem Governed.since (h : Governed C E I K s)
    {I' : List (Commit B W Q R ε O) → B → Prop}
    {K' : O → List (Commit B W Q R ε O) → B → Option B → Local W Q R ε → Prop}
    (hI' : I' s.history s.base) :
    Governed C E I' (fun t o h b v l => s.tickets ≤ t → K' o h b v l) s := by
  refine ⟨h.toConforms, h.books, h.apart, hI', fun i c hc ht => ?_, fun d hd ht => ?_⟩
  · exact absurd ht (Nat.not_le.mpr (h.books.fresh _ (.inl ⟨i, c, hc, rfl⟩)))
  · exact absurd ht (Nat.not_le.mpr (h.books.fresh _ (.inr ⟨d, hd, rfl⟩)))

section Resources

variable {ι ν : Type} {takes : W → ι → ν → Prop} {free : B → ι → ν → Prop} {taken : B → ι → Prop}

/-- Something that is taken for good by the write of one commit: it is free when the write is
made, no write that goes with it touches it, and the commit takes it. -/
structure Resource (C : Contract W Q R ε O α) (E : Engine B W Q R ε) (takes : W → ι → ν → Prop)
    (free : B → ι → ν → Prop) (taken : B → ι → Prop) : Prop where
  exclusive : ∀ b i v, free b i v → ¬ taken b i
  asked : ∀ o l q b v₀ v w i x, E.view l.writes b = some v → C.asks o l q → l.aborted = false →
    w ∈ E.effect q v₀ v → takes w i x → free b i x
  published : ∀ ws b b' w i x, E.view ws b = some b' → w ∈ ws → takes w i x → free b i x → taken b' i
  stays : ∀ ws b b' i, E.view ws b = some b' → taken b i → taken b' i
  untouched : ∀ ws b b' w' i x, E.view ws b = some b' → takes w' i x →
    (∀ w ∈ ws, E.clash w w' = false) → free b i x → free b' i x
  foreign : ∀ ws b b' i, E.foreign ws b b' = true → taken b i → taken b' i
  foreign_free : ∀ ws b b' w i x, E.foreign ws b b' = true → w ∈ ws → takes w i x → free b i x →
    free b' i x

/-- Every commit found free what it took, it stays taken, and no two commits took the same. -/
structure TakenOnce (takes : W → ι → ν → Prop) (free : B → ι → ν → Prop) (taken : B → ι → Prop)
    (h : List (Commit B W Q R ε O)) (b : B) : Prop where
  free : ∀ c ∈ h, ∀ w ∈ c.writes, ∀ i x, takes w i x → free c.base i x
  taken : ∀ c ∈ h, ∀ w ∈ c.writes, ∀ i x, takes w i x → taken b i
  once : h.Pairwise fun c c' => ∀ w ∈ c.writes, ∀ w' ∈ c'.writes, ∀ i x x',
    takes w i x → ¬ takes w' i x'

/-- What an open transaction is about to take is free. -/
def HoldsFree (takes : W → ι → ν → Prop) (free : B → ι → ν → Prop) (b : B)
    (l : Local W Q R ε) : Prop :=
  ∀ w ∈ l.writes, ∀ i x, takes w i x → free b i x

theorem TakenOnce.append_others {h : List (Commit B W Q R ε O)} {b b' : B}
    (hI : TakenOnce takes free taken h b) (hstays : ∀ i, taken b i → taken b' i) :
    TakenOnce takes free taken (h ++ [{ author := none, base := b, next := b' }]) b' := by
  refine ⟨fun c hc w hw i x hx => ?_, fun c hc w hw i x hx => ?_, ?_⟩
  · rcases List.mem_append.mp hc with hc | hc
    · exact hI.free c hc w hw i x hx
    · obtain rfl := List.mem_singleton.mp hc
      cases hw
  · rcases List.mem_append.mp hc with hc | hc
    · exact hstays i (hI.taken c hc w hw i x hx)
    · obtain rfl := List.mem_singleton.mp hc
      cases hw
  · refine List.pairwise_append.mpr ⟨hI.once, List.pairwise_singleton _ _, ?_⟩
    intro c hc c' hc' w hw w' hw'
    obtain rfl := List.mem_singleton.mp hc'
    cases hw'

theorem Resource.append (hR : Resource C E takes free taken) {h : List (Commit B W Q R ε O)}
    {b b' : B} {l : Local W Q R ε} (hI : TakenOnce takes free taken h b)
    (hK : HoldsFree takes free b l) (hview : E.view l.writes b = some b') (a : Option (ℕ × O)) :
    TakenOnce takes free taken (h ++ [{ author := a, loc := l, base := b, next := b' }]) b' := by
  refine ⟨fun c hc w hw i x hx => ?_, fun c hc w hw i x hx => ?_, ?_⟩
  · rcases List.mem_append.mp hc with hc | hc
    · exact hI.free c hc w hw i x hx
    · obtain rfl := List.mem_singleton.mp hc
      exact hK w hw i x hx
  · rcases List.mem_append.mp hc with hc | hc
    · exact hR.stays _ _ _ _ hview (hI.taken c hc w hw i x hx)
    · obtain rfl := List.mem_singleton.mp hc
      exact hR.published _ _ _ _ _ _ hview hw hx (hK w hw i x hx)
  · refine List.pairwise_append.mpr ⟨hI.once, List.pairwise_singleton _ _, ?_⟩
    intro c hc c' hc' w hw w' hw' i x x' hx hx'
    obtain rfl := List.mem_singleton.mp hc'
    exact hR.exclusive _ _ _ (hK w' hw' i x' hx') (hI.taken c hc w hw i x hx)

/-- A resource obeys its law: no two commits take the same. -/
theorem Resource.law (hR : Resource C E takes free taken) :
    Law C E (TakenOnce takes free taken) (fun _ _ _ b _ l => HoldsFree takes free b l) where
  start t o h b _ _ := by simp [HoldsFree]
  began t o h b l v _ hK _ := hK
  answered t o h b l q v₀ v _ hK hlive hview hasks := by
    intro w hw i x hx
    rcases List.mem_append.mp hw with hw | hw
    · exact hK w hw i x hx
    · exact hR.asked _ _ _ _ _ _ _ _ _ hview hasks hlive hw hx
  lost t o h b s l q hK _ := by
    intro w hw
    exact hK w (by simpa using hw)
  dropped t o h b s l _ := by simp [HoldsFree]
  kept t o h b s l b' hI hK _ hview := hR.append hI hK hview _
  published t o h b s l b' _ _ _ _ := by simp [HoldsFree]
  stable t o h b s l b' t' o' s' l' _ _ _ _ hview hK' hapart := by
    intro w' hw' i x hx
    exact hR.untouched _ _ _ _ _ _ hview hx (fun w hw => hapart w hw w' hw') (hK' w' hw' i x hx)
  foreign ws h b b' hI hforeign := hI.append_others fun i => hR.foreign _ _ _ _ hforeign
  foreign_stable ws h b b' t o s l _ hK hforeign hheld := by
    intro w hw i x hx
    exact hR.foreign_free _ _ _ _ _ _ hforeign (hheld w hw) hx (hK w hw i x hx)

/-- The commit that took something is the only one. -/
theorem TakenOnce.eq {h : List (Commit B W Q R ε O)} {b : B} (hI : TakenOnce takes free taken h b)
    {c c' : Commit B W Q R ε O} (hc : c ∈ h) (hc' : c' ∈ h) {w w' : W} (hw : w ∈ c.writes)
    (hw' : w' ∈ c'.writes) {i : ι} {x x' : ν} (hx : takes w i x) (hx' : takes w' i x') : c = c' := by
  by_contra hne
  have : Std.Symm fun c c' : Commit B W Q R ε O => ∀ w ∈ c.writes, ∀ w' ∈ c'.writes, ∀ i x x',
      takes w i x → ¬ takes w' i x' :=
    ⟨fun _ _ hno w hw w' hw' i x x' hx hx' => hno w' hw' w hw i x' x hx' hx⟩
  exact hI.once.forall hc hc' hne w hw w' hw' i x x' hx hx'

end Resources

section Lasting

variable {P : B → Prop}

/-- Once true of the committed database, true of whatever any transaction sees. -/
structure Lasting (E : Engine B W Q R ε) (P : B → Prop) : Prop where
  view : ∀ ws b b', E.view ws b = some b' → P b → P b'
  foreign : ∀ ws b b', E.foreign ws b b' = true → P b → P b'

/-- Every statement was lost, or answered from databases of this kind. -/
def Sees (E : Engine B W Q R ε) (P : B → Prop) (l : Local W Q R ε) : Prop :=
  ∀ x ∈ l.trace, x.answer = .error E.lost ∨ ∃ b₀ b, P b₀ ∧ P b ∧ x.answer = E.answer x.query b₀ b

theorem Sees.ask {l : Local W Q R ε} (h : Sees E P l) {q : Q} {r : Except ε (R q)} {new : List W}
    (hr : r = .error E.lost ∨ ∃ b₀ b, P b₀ ∧ P b ∧ r = E.answer q b₀ b) :
    Sees E P (l.ask E q r new) := by
  intro x hx
  rcases List.mem_append.mp hx with hx | hx
  · exact h x hx
  · cases List.mem_singleton.mp hx
    exact hr

/-- What lasts is what the calls that start later see. -/
theorem Lasting.law (hP : Lasting E P) (floor : ℕ) :
    Law C E (fun _ b => P b)
      (fun t _ _ _ s l => floor ≤ t → (∀ v ∈ s, P v) ∧ Sees E P l) where
  start t o h b _ _ _ := by simp [Sees]
  began t o h b l v hI hK hv ht := by
    refine ⟨fun v' hv' => ?_, (hK ht).2⟩
    obtain rfl := Option.mem_some.mp hv'
    exact hP.view _ _ _ hv hI
  answered t o h b l q v₀ v hI hK _ hv _ ht := by
    refine ⟨by simp, (hK ht).2.ask (.inr ⟨v₀, v, (hK ht).1 v₀ rfl, hP.view _ _ _ hv hI, rfl⟩)⟩
  lost t o h b s l q hK _ ht := ⟨by simp, (hK ht).2.ask (.inl rfl)⟩
  dropped t o h b s l hK ht := ⟨by simp, (hK ht).2⟩
  kept t o h b s l b' hI _ _ hv := hP.view _ _ _ hv hI
  published t o h b s l b' _ hK _ _ ht := ⟨by simp, (hK ht).2⟩
  stable t o h b s l b' t' o' s' l' _ _ _ _ _ hK' _ := hK'
  foreign ws h b b' hI hforeign := hP.foreign _ _ _ hforeign hI
  foreign_stable ws h b b' t o s l _ hK _ _ := hK

/-- Calls that start once `P` holds see `P`. -/
theorem Lasting.exec (hP : Lasting E P) (hC : C.Met E program) (hs : Governed C E I K s)
    (hbase : P s.base) {as : List (Action B O n)}
    (h : exec (Interleaving.step E program) s as = some s') :
    P s'.base ∧ ∀ d ∈ s'.log, s.tickets ≤ d.ticket → Sees E P d.loc := by
  have hgoverned := Governed.exec hC (hP.law s.tickets) (hs.since hbase) h
  exact ⟨hgoverned.base, fun d hd ht => (hgoverned.done d hd ht).2⟩

end Lasting

section Conjunction

variable {I' : List (Commit B W Q R ε O) → B → Prop}
  {K' : ℕ → O → List (Commit B W Q R ε O) → B → Option B → Local W Q R ε → Prop}

/-- Two laws under one contract are one law. -/
theorem Law.and (L : Law C E I K) (L' : Law C E I' K') :
    Law C E (fun h b => I h b ∧ I' h b)
      (fun t o h b s l => K t o h b s l ∧ K' t o h b s l) where
  start t o h b ht hI := ⟨L.start t o h b ht hI.1, L'.start t o h b ht hI.2⟩
  began t o h b l v hI hK hv :=
    ⟨L.began t o h b l v hI.1 hK.1 hv, L'.began t o h b l v hI.2 hK.2 hv⟩
  answered t o h b l q v₀ v hI hK hl hv ha :=
    ⟨L.answered t o h b l q v₀ v hI.1 hK.1 hl hv ha, L'.answered t o h b l q v₀ v hI.2 hK.2 hl hv ha⟩
  lost t o h b s l q hK hl := ⟨L.lost t o h b s l q hK.1 hl, L'.lost t o h b s l q hK.2 hl⟩
  dropped t o h b s l hK := ⟨L.dropped t o h b s l hK.1, L'.dropped t o h b s l hK.2⟩
  kept t o h b s l b' hI hK hc hv :=
    ⟨L.kept t o h b s l b' hI.1 hK.1 hc hv, L'.kept t o h b s l b' hI.2 hK.2 hc hv⟩
  published t o h b s l b' hI hK hc hv :=
    ⟨L.published t o h b s l b' hI.1 hK.1 hc hv, L'.published t o h b s l b' hI.2 hK.2 hc hv⟩
  stable t o h b s l b' t' o' s' l' hne hI hK hc hv hK' ha :=
    ⟨L.stable t o h b s l b' t' o' s' l' hne hI.1 hK.1 hc hv hK'.1 ha,
      L'.stable t o h b s l b' t' o' s' l' hne hI.2 hK.2 hc hv hK'.2 ha⟩
  foreign ws h b b' hI hf := ⟨L.foreign ws h b b' hI.1 hf, L'.foreign ws h b b' hI.2 hf⟩
  foreign_stable ws h b b' t o s l hI hK hf hw :=
    ⟨L.foreign_stable ws h b b' t o s l hI.1 hK.1 hf hw,
      L'.foreign_stable ws h b b' t o s l hI.2 hK.2 hf hw⟩

end Conjunction

section Among

variable (ops : List O)

/-- Every call that has committed is the one that `ops` lists under its ticket. -/
def Among (h : List (Commit B W Q R ε O)) : Prop :=
  ∀ c ∈ h, ∀ a ∈ c.author, ops[a.1]? = some a.2

/-- A law for runs in which the calls are those of `ops`. -/
def Lawful (C : Contract W Q R ε O α) (E : Engine B W Q R ε)
    (I : List (Commit B W Q R ε O) → B → Prop)
    (K : ℕ → O → List (Commit B W Q R ε O) → B → Option B → Local W Q R ε → Prop) : Prop :=
  Law C E (fun h b => Among ops h → I h b)
    (fun t o h b s l => Among ops h → ops[t]? = some o → K t o h b s l)

/-- What has to be shown of `I` and `K` where `P` and `Q` are known to be a law for these calls. -/
structure Rule (C : Contract W Q R ε O α) (E : Engine B W Q R ε)
    (P : List (Commit B W Q R ε O) → B → Prop)
    (Q' : ℕ → O → List (Commit B W Q R ε O) → B → Option B → Local W Q R ε → Prop)
    (I : List (Commit B W Q R ε O) → B → Prop)
    (K : ℕ → O → List (Commit B W Q R ε O) → B → Option B → Local W Q R ε → Prop) : Prop where
  start : ∀ t o h b, ops[t]? = some o → P h b → I h b → Q' t o h b none {} → K t o h b none {}
  began : ∀ t o h b l v, ops[t]? = some o → P h b → I h b → Q' t o h b none l → K t o h b none l →
    E.view l.writes b = some v → K t o h b (some v) l
  answered : ∀ t o h b l q v₀ v, ops[t]? = some o → P h b → I h b → Q' t o h b (some v₀) l →
    K t o h b (some v₀) l → l.aborted = false → E.view l.writes b = some v → C.asks o l q →
    K t o h b none (l.ask E q (E.answer q v₀ v) (E.effect q v₀ v))
  lost : ∀ t o h b s l q, K t o h b s l → K t o h b none (l.ask E q (.error E.lost) [])
  dropped : ∀ t o h b s l, K t o h b s l → K t o h b none l.drop
  kept : ∀ t o h b s l b', ops[t]? = some o → P h b → I h b → Q' t o h b s l → K t o h b s l →
    C.commits o l → E.view l.writes b = some b' →
    I (h ++ [{ author := some (t, o), loc := l, base := b, next := b' }]) b'
  published : ∀ t o h b s l b', ops[t]? = some o → P h b → I h b → Q' t o h b s l →
    K t o h b s l → C.commits o l → E.view l.writes b = some b' →
    K t o (h ++ [{ author := some (t, o), loc := l, base := b, next := b' }]) b' none l.publish
  stable : ∀ t o h b s l b' t' o' s' l', t ≠ t' → ops[t]? = some o → ops[t']? = some o' →
    P h b → I h b → Q' t o h b s l → K t o h b s l → C.commits o l → E.view l.writes b = some b' →
    Q' t' o' h b s' l' → K t' o' h b s' l' →
    (∀ w ∈ l.writes, ∀ w' ∈ l'.writes, E.clash w w' = false) →
    K t' o' (h ++ [{ author := some (t, o), loc := l, base := b, next := b' }]) b' s' l'
  foreign : ∀ ws h b b', P h b → I h b → E.foreign ws b b' = true →
    I (h ++ [{ author := none, base := b, next := b' }]) b'
  foreign_stable : ∀ ws h b b' t o s l, ops[t]? = some o → P h b → I h b → Q' t o h b s l →
    K t o h b s l → E.foreign ws b b' = true → (∀ w ∈ l.writes, w ∈ ws) →
    K t o (h ++ [{ author := none, base := b, next := b' }]) b' s l

variable {ops} {P : List (Commit B W Q R ε O) → B → Prop}
  {Q' : ℕ → O → List (Commit B W Q R ε O) → B → Option B → Local W Q R ε → Prop}

theorem Among.init {h : List (Commit B W Q R ε O)} {c : Commit B W Q R ε O}
    (hops : Among ops (h ++ [c])) : Among ops h :=
  fun c' hc' => hops c' (List.mem_append_left _ hc')

theorem Among.last {h : List (Commit B W Q R ε O)} {t : ℕ} {o : O} {l : Local W Q R ε} {b b' : B}
    (hops : Among ops (h ++ [{ author := some (t, o), loc := l, base := b, next := b' }])) :
    ops[t]? = some o :=
  hops _ (List.mem_append_right _ (List.mem_singleton.mpr rfl)) (t, o) rfl

/-- A law that rests on another one joins it. -/
theorem Rule.and (hrule : Rule ops C E P Q' I K) (L : Lawful ops C E P Q') :
    Lawful ops C E (fun h b => P h b ∧ I h b)
      (fun t o h b s l => Q' t o h b s l ∧ K t o h b s l) where
  start t o h b ht hI hops ho := by
    have hQ := L.start t o h b ht (fun hops => (hI hops).1) hops ho
    exact ⟨hQ, hrule.start t o h b ho (hI hops).1 (hI hops).2 hQ⟩
  began t o h b l v hI hK hv hops ho :=
    ⟨L.began t o h b l v (fun hops => (hI hops).1) (fun hops ho => (hK hops ho).1) hv hops ho,
      hrule.began t o h b l v ho (hI hops).1 (hI hops).2 (hK hops ho).1 (hK hops ho).2 hv⟩
  answered t o h b l q v₀ v hI hK hl hv ha hops ho :=
    ⟨L.answered t o h b l q v₀ v (fun hops => (hI hops).1) (fun hops ho => (hK hops ho).1) hl hv ha
        hops ho,
      hrule.answered t o h b l q v₀ v ho (hI hops).1 (hI hops).2 (hK hops ho).1 (hK hops ho).2 hl hv
        ha⟩
  lost t o h b s l q hK hl hops ho :=
    ⟨L.lost t o h b s l q (fun hops ho => (hK hops ho).1) hl hops ho,
      hrule.lost t o h b s l q (hK hops ho).2⟩
  dropped t o h b s l hK hops ho :=
    ⟨L.dropped t o h b s l (fun hops ho => (hK hops ho).1) hops ho,
      hrule.dropped t o h b s l (hK hops ho).2⟩
  kept t o h b s l b' hI hK hc hv hops := by
    have hpre := hops.init
    have ho := hops.last
    exact ⟨L.kept t o h b s l b' (fun hops => (hI hops).1) (fun hops ho => (hK hops ho).1) hc hv hops,
      hrule.kept t o h b s l b' ho (hI hpre).1 (hI hpre).2 (hK hpre ho).1 (hK hpre ho).2 hc hv⟩
  published t o h b s l b' hI hK hc hv hops ho := by
    have hpre := hops.init
    exact ⟨L.published t o h b s l b' (fun hops => (hI hops).1) (fun hops ho => (hK hops ho).1) hc hv
        hops ho,
      hrule.published t o h b s l b' ho (hI hpre).1 (hI hpre).2 (hK hpre ho).1 (hK hpre ho).2 hc hv⟩
  stable t o h b s l b' t' o' s' l' hne hI hK hc hv hK' ha hops ho' := by
    have hpre := hops.init
    have ho := hops.last
    exact ⟨L.stable t o h b s l b' t' o' s' l' hne (fun hops => (hI hops).1)
        (fun hops ho => (hK hops ho).1) hc hv (fun hops ho => (hK' hops ho).1) ha hops ho',
      hrule.stable t o h b s l b' t' o' s' l' hne ho ho' (hI hpre).1 (hI hpre).2 (hK hpre ho).1
        (hK hpre ho).2 hc hv (hK' hpre ho').1 (hK' hpre ho').2 ha⟩
  foreign ws h b b' hI hf hops :=
    ⟨L.foreign ws h b b' (fun hops => (hI hops).1) hf hops,
      hrule.foreign ws h b b' (hI hops.init).1 (hI hops.init).2 hf⟩
  foreign_stable ws h b b' t o s l hI hK hf hw hops ho := by
    have hpre := hops.init
    exact ⟨L.foreign_stable ws h b b' t o s l (fun hops => (hI hops).1)
        (fun hops ho => (hK hops ho).1) hf hw hops ho,
      hrule.foreign_stable ws h b b' t o s l ho (hI hpre).1 (hI hpre).2 (hK hpre ho).1 (hK hpre ho).2
        hf hw⟩

section Shapes

variable {I₀ : List (Commit B W Q R ε O) → B → Prop}
  {K₀ : ℕ → O → List (Commit B W Q R ε O) → B → Option B → Local W Q R ε → Prop}

/-- What holds of the database and its history alone. -/
theorem Rule.of_invariant
    (hkept : ∀ t o h b s l b', ops[t]? = some o → P h b → I₀ h b → Q' t o h b s l → C.commits o l →
      E.view l.writes b = some b' →
      I₀ (h ++ [{ author := some (t, o), loc := l, base := b, next := b' }]) b')
    (hforeign : ∀ ws h b b', P h b → I₀ h b → E.foreign ws b b' = true →
      I₀ (h ++ [{ author := none, base := b, next := b' }]) b') :
    Rule ops C E P Q' I₀ (fun _ _ _ _ _ _ => True) where
  start _ _ _ _ _ _ _ _ := trivial
  began _ _ _ _ _ _ _ _ _ _ _ _ := trivial
  answered _ _ _ _ _ _ _ _ _ _ _ _ _ _ _ _ := trivial
  lost _ _ _ _ _ _ _ _ := trivial
  dropped _ _ _ _ _ _ _ := trivial
  kept t o h b s l b' ho hP hI hQ _ := hkept t o h b s l b' ho hP hI hQ
  published _ _ _ _ _ _ _ _ _ _ _ _ _ _ := trivial
  stable _ _ _ _ _ _ _ _ _ _ _ _ _ _ _ _ _ _ _ _ _ _ _ := trivial
  foreign := hforeign
  foreign_stable _ _ _ _ _ _ _ _ _ _ _ _ _ _ _ := trivial

/-- What holds of what a call has done, whatever the database is. -/
theorem Rule.of_local {J : ℕ → O → Local W Q R ε → Prop} (hstart : ∀ t o, J t o {})
    (hanswered : ∀ t o h b l q v₀ v, ops[t]? = some o → P h b → Q' t o h b (some v₀) l → J t o l →
      l.aborted = false → E.view l.writes b = some v → C.asks o l q →
      J t o (l.ask E q (E.answer q v₀ v) (E.effect q v₀ v)))
    (hlost : ∀ t o l q, J t o l → J t o (l.ask E q (.error E.lost) []))
    (hdrop : ∀ t o l, J t o l → J t o l.drop) (hpublish : ∀ t o l, J t o l → J t o l.publish) :
    Rule ops C E P Q' (fun _ _ => True) (fun t o _ _ _ l => J t o l) where
  start t o _ _ _ _ _ _ := hstart t o
  began _ _ _ _ _ _ _ _ _ _ hK _ := hK
  answered t o h b l q v₀ v ho hP _ hQ hK hl hv ha := hanswered t o h b l q v₀ v ho hP hQ hK hl hv ha
  lost t o _ _ _ l q hK := hlost t o l q hK
  dropped t o _ _ _ l hK := hdrop t o l hK
  kept _ _ _ _ _ _ _ _ _ _ _ _ _ _ := trivial
  published t o _ _ _ l _ _ _ _ _ hK _ _ := hpublish t o l hK
  stable _ _ _ _ _ _ _ _ _ _ _ _ _ _ _ _ _ _ _ _ _ hK' _ := hK'
  foreign _ _ _ _ _ _ _ := trivial
  foreign_stable _ _ _ _ _ _ _ _ _ _ _ _ hK _ _ := hK

/-- What holds of every statement a call has asked, however the history goes on. -/
theorem Rule.of_trace {J : ℕ → O → List (Commit B W Q R ε O) → B → Asked Q R ε → Prop}
    (hanswered : ∀ t o h b l q v₀ v, ops[t]? = some o → P h b → Q' t o h b (some v₀) l →
      l.aborted = false → E.view l.writes b = some v → C.asks o l q →
      J t o h b ⟨q, E.answer q v₀ v⟩)
    (hlost : ∀ t o h b q, J t o h b ⟨q, .error E.lost⟩)
    (hlater : ∀ t o h c x, J t o h c.base x → J t o (h ++ [c]) c.next x) :
    Rule ops C E P Q' (fun _ _ => True) (fun t o h b _ l => ∀ x ∈ l.trace, J t o h b x) where
  start _ _ _ _ _ _ _ _ _ hx := by cases hx
  began _ _ _ _ _ _ _ _ _ _ hK _ := hK
  answered t o h b l q v₀ v ho hP _ hQ hK hl hv ha x hx := by
    rcases List.mem_append.mp hx with hx | hx
    · exact hK x hx
    · obtain rfl := List.mem_singleton.mp hx
      exact hanswered t o h b l q v₀ v ho hP hQ hl hv ha
  lost t o h b s l q hK x hx := by
    rcases List.mem_append.mp hx with hx | hx
    · exact hK x hx
    · obtain rfl := List.mem_singleton.mp hx
      exact hlost t o h b q
  dropped _ _ _ _ _ _ hK := hK
  kept _ _ _ _ _ _ _ _ _ _ _ _ _ _ := trivial
  published t o h b _ _ _ _ _ _ _ hK _ _ x hx := hlater t o h _ x (hK x hx)
  stable _ _ h _ _ _ _ t' o' _ _ _ _ _ _ _ _ _ _ _ _ hK' _ x hx := hlater t' o' h _ x (hK' x hx)
  foreign _ _ _ _ _ _ _ := trivial
  foreign_stable _ h _ _ t o _ _ _ _ _ _ hK _ _ x hx := hlater t o h _ x (hK x hx)

/-- What holds of the snapshot of a statement that waits, however the history goes on. -/
theorem Rule.of_snapshot {J : ℕ → O → List (Commit B W Q R ε O) → B → Local W Q R ε → B → Prop}
    (hbegan : ∀ t o h b l v, ops[t]? = some o → P h b → Q' t o h b none l →
      E.view l.writes b = some v → J t o h b l v)
    (hlater : ∀ t o h c l v, J t o h c.base l v → J t o (h ++ [c]) c.next l v) :
    Rule ops C E P Q' (fun _ _ => True) (fun t o h b s l => ∀ v ∈ s, J t o h b l v) where
  start _ _ _ _ _ _ _ _ _ hv := by cases hv
  began t o h b l v ho hP _ hQ _ hview v' hv' := by
    obtain rfl := Option.mem_some.mp hv'
    exact hbegan t o h b l v ho hP hQ hview
  answered _ _ _ _ _ _ _ _ _ _ _ _ _ _ _ _ _ hv := by cases hv
  lost _ _ _ _ _ _ _ _ _ hv := by cases hv
  dropped _ _ _ _ _ _ _ _ hv := by cases hv
  kept _ _ _ _ _ _ _ _ _ _ _ _ _ _ := trivial
  published _ _ _ _ _ _ _ _ _ _ _ _ _ _ _ hv := by cases hv
  stable _ _ h _ _ _ _ t' o' _ l' _ _ _ _ _ _ _ _ _ _ hK' _ v hv := hlater t' o' h _ l' v (hK' v hv)
  foreign _ _ _ _ _ _ _ := trivial
  foreign_stable _ h _ _ t o _ l _ _ _ _ hK _ _ v hv := hlater t o h _ l v (hK v hv)

end Shapes

theorem Lawful.congr {I' : List (Commit B W Q R ε O) → B → Prop}
    {K' : ℕ → O → List (Commit B W Q R ε O) → B → Option B → Local W Q R ε → Prop}
    (L : Lawful ops C E I K) (hI : ∀ h b, I h b ↔ I' h b)
    (hK : ∀ t o h b s l, K t o h b s l ↔ K' t o h b s l) : Lawful ops C E I' K' := by
  obtain rfl : I = I' := funext fun h => funext fun b => propext (hI h b)
  obtain rfl : K = K' := funext fun t => funext fun o => funext fun h => funext fun b =>
    funext fun s => funext fun l => propext (hK t o h b s l)
  exact L

/-- What a call has committed is what the history holds under its ticket. -/
theorem lawful_mine (ops : List O) :
    Lawful ops C E (fun _ _ => True) (fun t _ h _ _ l => batches h t = l.mine) where
  start t o h b ht _ _ _ := batches_eq_nil fun c hc a ha hticket => ht c hc ⟨a, ha, hticket⟩
  began t o h b l v _ hK _ hops ho := hK hops ho
  answered t o h b l q v₀ v _ hK _ _ _ hops ho := hK hops ho
  lost t o h b s l q hK _ hops ho := hK hops ho
  dropped t o h b s l hK hops ho := hK hops ho
  kept t o h b s l b' _ _ _ _ _ := trivial
  published t o h b s l b' _ hK _ _ hops ho := by
    have hmine := hK hops.init ho
    simp only [batches_append_own, if_true, hmine, Local.publish_mine]
  stable t o h b s l b' t' o' s' l' hne _ _ _ _ hK' _ hops ho' := by
    have hmine := hK' hops.init ho'
    simp only [batches_append_own, hne, if_false, List.append_nil, hmine]
  foreign ws h b b' _ _ _ := trivial
  foreign_stable ws h b b' t o s l _ hK _ _ hops ho := by
    have hmine := hK hops.init ho
    simp only [batches_append_others, hmine]

/-- What a law says of a run whose calls are those of `ops`. -/
structure Ruled (ops : List O) (C : Contract W Q R ε O α) (E : Engine B W Q R ε)
    (I : List (Commit B W Q R ε O) → B → Prop)
    (K : ℕ → O → List (Commit B W Q R ε O) → B → Option B → Local W Q R ε → Prop)
    (s : State B W Q R ε O α n) : Prop extends Conforms C E s where
  books : Books s
  among : Among ops s.history
  listed : ∀ d ∈ s.log, ops[d.ticket]? = some d.op
  base : I s.history s.base
  done : ∀ d ∈ s.log, K d.ticket d.op s.history s.base none d.loc.drop

theorem Lawful.exec (hC : C.Met E program) (hidle : Idle s) {as : List (Action B O n)}
    (L : Lawful (as.filterMap called) C E I K) (hbase : I [] s.base)
    (h : exec (Interleaving.step E program) s as = some s') :
    Ruled (as.filterMap called) C E I K s' := by
  have hgoverned := Governed.exec hC L (.of_idle hidle fun _ => hbase) h
  have hstarted := Started.exec hidle h
  have hamong : Among (as.filterMap called) s'.history := by
    intro c hc a ha
    obtain ⟨e, he, hticket, hop⟩ := hgoverned.books.author c hc a ha
    rw [← hticket, ← hop]
    exact hstarted.op e he
  have hlisted : ∀ d ∈ s'.log, (as.filterMap called)[d.ticket]? = some d.op := fun d hd =>
    hstarted.op d.toEntry (.inr ⟨d, hd, rfl⟩)
  exact ⟨hgoverned.toConforms, hgoverned.books, hamong, hlisted, hgoverned.base hamong, fun d hd =>
    hgoverned.done d hd hamong (hlisted d hd)⟩

end Among

end Tekir.Contracts
