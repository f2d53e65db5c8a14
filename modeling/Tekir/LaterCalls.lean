import Tekir.Contracts

/-!
# Calls that start later

What a run has come to at some moment is the ground for what holds of every call that
starts after it. The law of the whole run stays; on top of it comes one for those calls,
taken up in the middle.
-/
namespace Tekir.Contracts
open Machine Programs Interleaving Bookkeeping

variable {B W Q ε O α : Type} {R : Q → Type} {n : ℕ}
  {C C' : Contract W Q R ε O α} {E : Engine B W Q R ε} {program : O → Prog Q R ε α}
  {I P : List (Commit B W Q R ε O) → B → Prop}
  {K Q' : ℕ → O → List (Commit B W Q R ε O) → B → Option B → Local W Q R ε → Prop}
  {s s₁ s' : State B W Q R ε O α n}

/-- A law under a contract holds under one that says more. -/
theorem Law.strengthen (L : Law C E I K) (hasks : ∀ o l q, C'.asks o l q → C.asks o l q)
    (hcommits : ∀ o l, C'.commits o l → C.commits o l) : Law C' E I K where
  start := L.start
  began := L.began
  answered t o h b l q v₀ v hI hK hl hv ha := L.answered t o h b l q v₀ v hI hK hl hv (hasks o l q ha)
  lost := L.lost
  dropped := L.dropped
  kept t o h b s l b' hI hK hc hv := L.kept t o h b s l b' hI hK (hcommits o l hc) hv
  published t o h b s l b' hI hK hc hv := L.published t o h b s l b' hI hK (hcommits o l hc) hv
  stable t o h b s l b' t' o' s' l' hne hI hK hc hv hK' ha :=
    L.stable t o h b s l b' t' o' s' l' hne hI hK (hcommits o l hc) hv hK' ha
  foreign := L.foreign
  foreign_stable := L.foreign_stable

variable {ops : List O}

theorem Lawful.and_contract (L : Lawful ops C E I K) : Lawful ops (C.and C') E I K :=
  Law.strengthen L (fun _ _ _ h => h.1) fun _ _ h => h.1

/-- What a call has found out and done stays true however the history goes on. -/
theorem Rule.of_growing (hstart : ∀ t o h b, K t o h b none {})
    (hbegan : ∀ t o h b l v, ops[t]? = some o → P h b → Q' t o h b none l → K t o h b none l →
      E.view l.writes b = some v → K t o h b (some v) l)
    (hanswered : ∀ t o h b l q v₀ v, ops[t]? = some o → P h b → Q' t o h b (some v₀) l →
      K t o h b (some v₀) l → E.view l.writes b = some v → C.asks o l q →
      K t o h b none (l.ask E q (E.answer q v₀ v) (E.effect q v₀ v)))
    (hlost : ∀ t o h b s l q, K t o h b s l → K t o h b none (l.ask E q (.error E.lost) []))
    (hclosed : ∀ t o h b s l l', K t o h b s l → l'.trace = l.trace → l'.writes = [] →
      K t o h b none l')
    (hlater : ∀ t o h c s l, K t o h c.base s l → K t o (h ++ [c]) c.next s l) :
    Rule ops C E P Q' (fun _ _ => True) K where
  start t o h b _ _ _ _ := hstart t o h b
  began t o h b l v ho hP _ hQ hK hview := hbegan t o h b l v ho hP hQ hK hview
  answered t o h b l q v₀ v ho hP _ hQ hK _ hview hasks :=
    hanswered t o h b l q v₀ v ho hP hQ hK hview hasks
  lost t o h b s l q hK := hlost t o h b s l q hK
  dropped _ _ _ _ _ _ hK := hclosed _ _ _ _ _ _ _ hK rfl rfl
  kept _ _ _ _ _ _ _ _ _ _ _ _ _ _ := trivial
  published t o h _ s l _ _ _ _ _ hK _ _ := hclosed t o _ _ s l _ (hlater t o h _ s l hK) rfl rfl
  stable _ _ h _ _ _ _ t' o' s' l' _ _ _ _ _ _ _ _ _ _ hK' _ := hlater t' o' h _ s' l' hK'
  foreign _ _ _ _ _ _ _ := trivial
  foreign_stable _ h _ _ t o s l _ _ _ _ hK _ _ := hlater t o h _ s l hK

/-- A law for the calls of `ops`, in a state of a run. -/
abbrev GovernedAmong (ops : List O) (C : Contract W Q R ε O α) (E : Engine B W Q R ε)
    (I : List (Commit B W Q R ε O) → B → Prop)
    (K : ℕ → O → List (Commit B W Q R ε O) → B → Option B → Local W Q R ε → Prop)
    (s : State B W Q R ε O α n) : Prop :=
  Governed C E (fun h b => Among ops h → I h b)
    (fun t o h b v l => Among ops h → ops[t]? = some o → K t o h b v l) s

/-- A rule about calls that start from now on joins a law in the middle of a run. -/
theorem Governed.join (hs : GovernedAmong ops C E P Q' s) (hI : Among ops s.history →
    P s.history s.base → I s.history s.base) :
    GovernedAmong ops C E (fun h b => P h b ∧ I h b)
      (fun t o h b v l => Q' t o h b v l ∧ (s.tickets ≤ t → K t o h b v l)) s := by
  refine ⟨hs.toConforms, hs.books, hs.apart, fun hops => ⟨hs.base hops, hI hops (hs.base hops)⟩,
    fun i c hc hops ho => ⟨hs.relies i c hc hops ho, fun ht => ?_⟩,
    fun d hd hops ho => ⟨hs.done d hd hops ho, fun ht => ?_⟩⟩
  · exact absurd ht (Nat.not_le.mpr (hs.books.fresh _ (.inl ⟨i, c, hc, rfl⟩)))
  · exact absurd ht (Nat.not_le.mpr (hs.books.fresh _ (.inr ⟨d, hd, rfl⟩)))

/-- The run `as₁` leads from an idle state to `s₁`, and `as₂` from there to `s'`. -/
structure Onward (E : Engine B W Q R ε) (program : O → Prog Q R ε α)
    (s : State B W Q R ε O α n) (as₁ : List (Action B O n)) (s₁ : State B W Q R ε O α n)
    (as₂ : List (Action B O n)) (s' : State B W Q R ε O α n) : Prop where
  idle : Idle s
  first : exec (Interleaving.step E program) s as₁ = some s₁
  then' : exec (Interleaving.step E program) s₁ as₂ = some s'

namespace Onward

variable {as₁ as₂ : List (Action B O n)}

/-- The calls of both parts, in the order in which they start. -/
def all (as₁ as₂ : List (Action B O n)) : List O :=
  (as₁ ++ as₂).filterMap called

theorem whole (h : Onward E program s as₁ s₁ as₂ s') :
    exec (Interleaving.step E program) s (as₁ ++ as₂) = some s' := by
  rw [exec_append, h.first]
  exact h.then'

theorem started (h : Onward E program s as₁ s₁ as₂ s') : Started (all as₁ as₂) s' :=
  Started.exec h.idle h.whole

theorem op_of_has (h : Onward E program s as₁ s₁ as₂ s') {e : Entry W Q R ε O} (he : Has s₁ e) :
    (all as₁ as₂)[e.ticket]? = some e.op := by
  have hop := (Started.exec h.idle h.first).op e he
  obtain ⟨hlt, -⟩ := List.getElem?_eq_some_iff.mp hop
  rw [all, List.filterMap_append, List.getElem?_append_left hlt, hop]

theorem among (h : Onward E program s as₁ s₁ as₂ s') (hbooks : Books s₁) :
    Among (all as₁ as₂) s₁.history := by
  intro c hc a ha
  obtain ⟨e, he, hticket, hop⟩ := hbooks.author c hc a ha
  rw [← hticket, ← hop]
  exact h.op_of_has he

/-- What the law of the whole run says at `s₁`. -/
theorem governed (h : Onward E program s as₁ s₁ as₂ s') (hC : C.Met E program)
    (L : Lawful (all as₁ as₂) C E P Q') (hbase : P [] s.base) :
    GovernedAmong (all as₁ as₂) C E P Q' s₁ :=
  Governed.exec hC L (.of_idle h.idle fun _ => hbase) h.first

/-- A rule that holds from `s₁` on holds of the calls that start later. -/
theorem later (h : Onward E program s as₁ s₁ as₂ s') (hC : C.Met E program)
    (L : Lawful (all as₁ as₂) C E P Q') (hbase : P [] s.base)
    (hrule : Rule (all as₁ as₂) C E P Q' I (fun t o h b v l => s₁.tickets ≤ t → K t o h b v l))
    (hI : P s₁.history s₁.base → I s₁.history s₁.base) :
    Ruled (all as₁ as₂) C E (fun h b => P h b ∧ I h b)
      (fun t o h b v l => Q' t o h b v l ∧ (s₁.tickets ≤ t → K t o h b v l)) s' := by
  have hjoined := (h.governed hC L hbase).join (I := I) (K := K) fun _ => hI
  have hgoverned := Governed.exec hC (hrule.and L) hjoined h.then'
  have hamong : Among (all as₁ as₂) s'.history := by
    intro c hc a ha
    obtain ⟨e, he, hticket, hop⟩ := hgoverned.books.author c hc a ha
    rw [← hticket, ← hop]
    exact h.started.op e he
  have hlisted : ∀ d ∈ s'.log, (all as₁ as₂)[d.ticket]? = some d.op := fun d hd =>
    h.started.op d.toEntry (.inr ⟨d, hd, rfl⟩)
  exact ⟨hgoverned.toConforms, hgoverned.books, hamong, hlisted, hgoverned.base hamong, fun d hd =>
    hgoverned.done d hd hamong (hlisted d hd)⟩

end Onward

end Tekir.Contracts
