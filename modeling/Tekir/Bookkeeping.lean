import Tekir.Interleaving

/-!
# The books of interleaved calls

Every call has a ticket of its own. The history holds exactly the batches that the calls
have committed, under their tickets, and the log holds each call that has returned once.
-/
namespace Tekir.Bookkeeping
open Machine Programs Interleaving

variable {B W Q ε O α : Type} {R : Q → Type} {n : ℕ} {E : Engine B W Q R ε}
  {program : O → Prog Q R ε α} {s s' : State B W Q R ε O α n} {a : Action B O n}

/-- The call is open or has returned. -/
def Has (s : State B W Q R ε O α n) (e : Entry W Q R ε O) : Prop :=
  (∃ i c, s.calls i = some c ∧ c.toEntry = e) ∨ ∃ d ∈ s.log, d.toEntry = e

/-- The call with this ticket made the commit. -/
def By (ticket : ℕ) (c : Commit B W Q R ε O) : Prop :=
  ∃ a ∈ c.author, a.1 = ticket

/-- What a call has committed, batch by batch. -/
def batches (history : List (Commit B W Q R ε O)) (ticket : ℕ) : List (List W) :=
  (history.filter fun c => c.author.any fun a => a.1 == ticket).map Commit.writes

/-- Tickets tell calls apart, and the history holds exactly what the calls have committed. -/
structure Books (s : State B W Q R ε O α n) : Prop where
  fresh : ∀ e, Has s e → e.ticket < s.tickets
  apart : ∀ i j c d, s.calls i = some c → s.calls j = some d → c.ticket = d.ticket → i = j
  done : ∀ i c, s.calls i = some c → ∀ d ∈ s.log, d.ticket ≠ c.ticket
  nodup : (s.log.map fun d => d.ticket).Nodup
  mine : ∀ e, Has s e → batches s.history e.ticket = e.loc.mine
  author : ∀ c ∈ s.history, ∀ a ∈ c.author, ∃ e, Has s e ∧ e.ticket = a.1 ∧ e.op = a.2

theorem batches_append_others (h : List (Commit B W Q R ε O)) (t : ℕ) (l : Local W Q R ε)
    (b b' : B) : batches (h ++ [{ author := none, loc := l, base := b, next := b' }]) t =
      batches h t := by
  simp [batches]

theorem batches_append_own (h : List (Commit B W Q R ε O)) (t t' : ℕ) (o : O) (l : Local W Q R ε)
    (b b' : B) : batches (h ++ [{ author := some (t', o), loc := l, base := b, next := b' }]) t =
      batches h t ++ if t' = t then [l.writes] else [] := by
  by_cases ht : t' = t <;> simp [batches, ht, Commit.writes]

theorem batches_eq_nil {h : List (Commit B W Q R ε O)} {t : ℕ}
    (ht : ∀ c ∈ h, ∀ a ∈ c.author, a.1 ≠ t) : batches h t = [] := by
  simp only [batches, List.map_eq_nil_iff, List.filter_eq_nil_iff]
  intro c hc hany
  cases hauthor : c.author with
  | none => simp [hauthor] at hany
  | some a => exact ht c hc a hauthor (by simpa [hauthor] using hany)

/-- A batch of a call is a commit of the history. -/
theorem mem_batches {h : List (Commit B W Q R ε O)} {t : ℕ} {ws : List W} :
    ws ∈ batches h t ↔ ∃ c ∈ h, By t c ∧ c.writes = ws := by
  simp [batches, By, Option.any_eq_true, and_assoc]

/-- The commits of a call that has returned are the batches it has recorded. -/
theorem Books.mem_mine (h : Books s) {d : Done W Q R ε O α} (hd : d ∈ s.log) {ws : List W} :
    ws ∈ d.loc.mine ↔ ∃ c ∈ s.history, By d.ticket c ∧ c.writes = ws := by
  rw [← h.mine d.toEntry (.inr ⟨d, hd, rfl⟩), mem_batches]

/-- The next ticket has not committed anything. -/
theorem Books.fresh_ticket (h : Books s) : ∀ c ∈ s.history, ¬ By s.tickets c := by
  rintro c hc ⟨a, ha, hticket⟩
  obtain ⟨e, he, hte, -⟩ := h.author c hc a ha
  exact Nat.ne_of_lt (h.fresh e he) (hte.trans hticket)

section Moved

variable {i : Fin n} {c c' : Call B W Q R ε O α}

/-- The entries after call `i` went from `c` to `c'`. -/
theorem has_moved (hlog : s'.log = s.log) (hcalls : s'.calls = Function.update s.calls i (some c'))
    {e : Entry W Q R ε O} (he : Has s' e) :
    e = c'.toEntry ∨ (Has s e ∧ ((∃ j d, j ≠ i ∧ s.calls j = some d ∧ d.toEntry = e) ∨
      ∃ d ∈ s.log, d.toEntry = e)) := by
  rcases he with ⟨j, d, hd, rfl⟩ | ⟨d, hd, rfl⟩
  · rw [hcalls] at hd
    by_cases hj : j = i
    · subst hj
      obtain rfl : c' = d := by simpa using hd
      exact .inl rfl
    · rw [Function.update_of_ne hj] at hd
      exact .inr ⟨.inl ⟨j, d, hd, rfl⟩, .inl ⟨j, d, hj, hd, rfl⟩⟩
  · rw [hlog] at hd
    exact .inr ⟨.inr ⟨d, hd, rfl⟩, .inr ⟨d, hd, rfl⟩⟩

theorem has_of_moved (hc : s.calls i = some c) (hlog : s'.log = s.log)
    (hcalls : s'.calls = Function.update s.calls i (some c')) {e : Entry W Q R ε O} (he : Has s e) :
    e = c.toEntry ∨ Has s' e := by
  rcases he with ⟨j, d, hd, rfl⟩ | ⟨d, hd, rfl⟩
  · by_cases hj : j = i
    · subst hj
      obtain rfl : c = d := Option.some.inj (hc.symm.trans hd)
      exact .inl rfl
    · refine .inr (.inl ⟨j, d, ?_, rfl⟩)
      rw [hcalls, Function.update_of_ne hj, hd]
  · exact .inr (.inr ⟨d, hlog ▸ hd, rfl⟩)

/-- A call that goes on with the same identity keeps the books, whether or not it commits. -/
theorem Books.moved (h : Books s) (hc : s.calls i = some c)
    (hcalls : s'.calls = Function.update s.calls i (some c')) (htickets : s'.tickets = s.tickets)
    (hlog : s'.log = s.log) (hid : c'.ticket = c.ticket ∧ c'.op = c.op)
    (hhistory : (s'.history = s.history ∧ c'.loc.mine = c.loc.mine) ∨
      (∃ b b', s'.history = s.history ++
        [{ author := some (c.ticket, c.op), loc := c.loc, base := b, next := b' }]) ∧
        c'.loc.mine = c.loc.mine ++ [c.loc.writes]) : Books s' := by
  have hhas : Has s c.toEntry := .inl ⟨i, c, hc, rfl⟩
  have hhas' : Has s' c'.toEntry := .inl ⟨i, c', by simp [hcalls], rfl⟩
  have hmine : batches s'.history c.ticket = c'.loc.mine := by
    rcases hhistory with ⟨hh, hm⟩ | ⟨⟨b, b', hh⟩, hm⟩
    · rw [hh, hm, h.mine _ hhas]
    · rw [hh, hm, batches_append_own, h.mine _ hhas, if_pos rfl]
  have hothers : ∀ t, c.ticket ≠ t → batches s'.history t = batches s.history t := by
    intro t ht
    rcases hhistory with ⟨hh, hm⟩ | ⟨⟨b, b', hh⟩, hm⟩
    · rw [hh]
    · rw [hh, batches_append_own, if_neg ht, List.append_nil]
  refine ⟨fun e he => ?_, fun j k d d' hd hd' ht => ?_, fun j d hd d' hd' => ?_,
    hlog ▸ h.nodup, fun e he => ?_, fun k hk a ha => ?_⟩
  · rw [htickets]
    rcases has_moved hlog hcalls he with rfl | ⟨he, -⟩
    · exact hid.1 ▸ h.fresh _ hhas
    · exact h.fresh e he
  · rw [hcalls] at hd hd'
    by_cases hj : j = i <;> by_cases hk : k = i
    · rw [hj, hk]
    · subst hj
      obtain rfl : c' = d := by simpa using hd
      rw [Function.update_of_ne hk] at hd'
      exact h.apart _ _ c d' hc hd' (hid.1.symm.trans ht)
    · subst hk
      obtain rfl : c' = d' := by simpa using hd'
      rw [Function.update_of_ne hj] at hd
      exact h.apart _ _ d c hd hc (ht.trans hid.1)
    · rw [Function.update_of_ne hj] at hd
      rw [Function.update_of_ne hk] at hd'
      exact h.apart _ _ d d' hd hd' ht
  · rw [hcalls] at hd
    rw [hlog] at hd'
    by_cases hj : j = i
    · subst hj
      obtain rfl : c' = d := by simpa using hd
      rw [hid.1]
      exact h.done _ c hc d' hd'
    · rw [Function.update_of_ne hj] at hd
      exact h.done _ d hd d' hd'
  · rcases has_moved hlog hcalls he with rfl | ⟨he, hother⟩
    · rw [hid.1, hmine]
    · have hne : c.ticket ≠ e.ticket := by
        rcases hother with ⟨j, d, hj, hd, rfl⟩ | ⟨d, hd, rfl⟩
        · exact fun ht => hj (h.apart _ _ d c hd hc ht.symm)
        · exact fun ht => h.done i c hc d hd ht.symm
      rw [hothers _ hne, h.mine e he]
  · have hold : k ∈ s.history → ∃ e, Has s' e ∧ e.ticket = a.1 ∧ e.op = a.2 := by
      intro hk
      obtain ⟨e, he, hticket, hop⟩ := h.author k hk a ha
      rcases has_of_moved hc hlog hcalls he with rfl | he
      · exact ⟨c'.toEntry, hhas', hid.1.trans hticket, hid.2.trans hop⟩
      · exact ⟨e, he, hticket, hop⟩
    rcases hhistory with ⟨hh, -⟩ | ⟨⟨b, b', hh⟩, -⟩
    · exact hold (hh ▸ hk)
    · rw [hh] at hk
      rcases List.mem_append.mp hk with hk | hk
      · exact hold hk
      · cases List.mem_singleton.mp hk
        cases ha
        exact ⟨c'.toEntry, hhas', hid.1, hid.2⟩

end Moved

theorem Books.called (h : Books s) {i : Fin n} {op : O} (idle : s.calls i = none)
    (hcalls : s'.calls = Function.update s.calls i (some (s.first program op)))
    (htickets : s'.tickets = s.tickets + 1) (hhistory : s'.history = s.history)
    (hlog : s'.log = s.log) : Books s' := by
  have hhas : ∀ e, Has s' e → e = (s.first program op).toEntry ∨ Has s e := by
    intro e he
    rcases has_moved hlog hcalls he with rfl | ⟨he, -⟩
    · exact .inl rfl
    · exact .inr he
  have hkeep : ∀ e, Has s e → Has s' e := by
    rintro e (⟨j, d, hd, rfl⟩ | ⟨d, hd, rfl⟩)
    · refine .inl ⟨j, d, ?_, rfl⟩
      have hj : j ≠ i := by
        rintro rfl
        simp [idle] at hd
      rw [hcalls, Function.update_of_ne hj, hd]
    · exact .inr ⟨d, hlog ▸ hd, rfl⟩
  refine ⟨fun e he => ?_, fun j k d d' hd hd' ht => ?_, fun j d hd d' hd' => ?_,
    hlog ▸ h.nodup, fun e he => ?_, fun k hk a ha => ?_⟩
  · rw [htickets]
    rcases hhas e he with rfl | he
    · exact Nat.lt_succ_self _
    · exact Nat.lt_succ_of_lt (h.fresh e he)
  · rw [hcalls] at hd hd'
    by_cases hj : j = i <;> by_cases hk : k = i
    · rw [hj, hk]
    · subst hj
      obtain rfl : s.first program op = d := by simpa using hd
      rw [Function.update_of_ne hk] at hd'
      exact absurd ht (Nat.ne_of_gt (h.fresh _ (.inl ⟨k, d', hd', rfl⟩)))
    · subst hk
      obtain rfl : s.first program op = d' := by simpa using hd'
      rw [Function.update_of_ne hj] at hd
      exact absurd ht (Nat.ne_of_lt (h.fresh _ (.inl ⟨j, d, hd, rfl⟩)))
    · rw [Function.update_of_ne hj] at hd
      rw [Function.update_of_ne hk] at hd'
      exact h.apart _ _ d d' hd hd' ht
  · rw [hcalls] at hd
    rw [hlog] at hd'
    by_cases hj : j = i
    · subst hj
      obtain rfl : s.first program op = d := by simpa using hd
      exact Nat.ne_of_lt (h.fresh _ (.inr ⟨d', hd', rfl⟩))
    · rw [Function.update_of_ne hj] at hd
      exact h.done _ d hd d' hd'
  · rw [hhistory]
    rcases hhas e he with rfl | he
    · refine batches_eq_nil fun k hk a ha hticket => ?_
      obtain ⟨e, he, hte, -⟩ := h.author k hk a ha
      exact Nat.ne_of_lt (h.fresh e he) (hte.trans hticket)
    · exact h.mine e he
  · rw [hhistory] at hk
    obtain ⟨e, he, hid⟩ := h.author k hk a ha
    exact ⟨e, hkeep e he, hid⟩

theorem has_returned {i : Fin n} {c : Call B W Q R ε O α} {a : α} (hc : s.calls i = some c)
    (e : Entry W Q R ε O) : Has (s.put i c (.returns a)) e ↔ Has s e := by
  simp only [Has, State.put, List.mem_append, List.mem_singleton]
  constructor
  · rintro (⟨j, d, hd, rfl⟩ | ⟨d, hd | rfl, rfl⟩)
    · by_cases hj : j = i
      · subst hj
        simp at hd
      · rw [Function.update_of_ne hj] at hd
        exact .inl ⟨j, d, hd, rfl⟩
    · exact .inr ⟨d, hd, rfl⟩
    · exact .inl ⟨i, c, hc, rfl⟩
  · rintro (⟨j, d, hd, rfl⟩ | ⟨d, hd, rfl⟩)
    · by_cases hj : j = i
      · subst hj
        obtain rfl : c = d := Option.some.inj (hc.symm.trans hd)
        exact .inr ⟨_, .inr rfl, rfl⟩
      · exact .inl ⟨j, d, by rw [Function.update_of_ne hj, hd], rfl⟩
    · exact .inr ⟨d, .inl hd, rfl⟩

theorem Books.returned (h : Books s) {i : Fin n} {c : Call B W Q R ε O α} {a : α}
    (hc : s.calls i = some c) : Books (s.put i c (.returns a)) := by
  have hhas : ∀ e, Has (s.put i c (.returns a)) e ↔ Has s e := has_returned hc
  have hcalls : ∀ j d, (s.put i c (.returns a)).calls j = some d → j ≠ i ∧ s.calls j = some d := by
    intro j d hd
    by_cases hj : j = i
    · subst hj
      simp [State.put] at hd
    · exact ⟨hj, by simpa [State.put, Function.update_of_ne hj] using hd⟩
  refine ⟨fun e he => h.fresh e ((hhas e).mp he), fun j k d d' hd hd' => ?_,
    fun j d hd d' hd' => ?_, ?_, fun e he => h.mine e ((hhas e).mp he), fun k hk b hb => ?_⟩
  · exact h.apart j k d d' (hcalls j d hd).2 (hcalls k d' hd').2
  · obtain ⟨hj, hd⟩ := hcalls j d hd
    rcases List.mem_append.mp hd' with hd' | hd'
    · exact h.done j d hd d' hd'
    · cases List.mem_singleton.mp hd'
      exact fun ht => hj (h.apart j i d c hd hc ht.symm)
  · simp only [State.put, List.map_append, List.map_cons, List.map_nil]
    refine List.nodup_append.mpr ⟨h.nodup, List.nodup_singleton _, ?_⟩
    intro t ht t' ht' heq
    obtain ⟨d, hd, rfl⟩ := List.mem_map.mp ht
    exact h.done i c hc d hd (heq.trans (List.mem_singleton.mp ht'))
  · obtain ⟨e, he, hid⟩ := h.author k hk b hb
    exact ⟨e, (hhas e).mpr he, hid⟩

theorem Books.step (h : Books s) (hs : Step E program s a s') : Books s' := by
  cases hs with
  | called i op idle => exact h.called idle rfl rfl rfl rfl
  | returned i c a hc hprog => exact h.returned hc
  | dropped i c next hc hprog ha =>
    exact h.moved hc rfl rfl rfl ⟨rfl, rfl⟩ (.inl ⟨rfl, rfl⟩)
  | committed i c k b hc hprog hlive hview =>
    exact h.moved hc rfl rfl rfl ⟨rfl, rfl⟩ (.inr ⟨⟨_, _, rfl⟩, rfl⟩)
  | began i c q k b hc hprog hlive hsnapshot hview =>
    exact h.moved hc rfl rfl rfl ⟨rfl, rfl⟩ (.inl ⟨rfl, rfl⟩)
  | answered i c q k b₀ b hc hprog hlive hsnapshot hview hfree =>
    exact h.moved hc rfl rfl rfl ⟨rfl, rfl⟩ (.inl ⟨rfl, rfl⟩)
  | lost i c q k hc hprog hlost ha =>
    exact h.moved hc rfl rfl rfl ⟨rfl, rfl⟩ (.inl ⟨rfl, rfl⟩)
  | others b hforeign =>
    refine ⟨h.fresh, h.apart, h.done, h.nodup, fun e he => ?_, fun k hk a ha => ?_⟩
    · rw [batches_append_others]
      exact h.mine e he
    · rcases List.mem_append.mp hk with hk | hk
      · exact h.author k hk a ha
      · cases List.mem_singleton.mp hk
        cases ha

theorem Books.of_idle (hidle : Idle s) : Books s := by
  have hnone : ∀ e, ¬ Has s e := by
    rintro e (⟨i, c, hc, -⟩ | ⟨d, hd, -⟩)
    · simp [hidle.calls i] at hc
    · simp [hidle.log] at hd
  refine ⟨fun e he => absurd he (hnone e), fun i j c d hc => ?_,
    fun i c hc => ?_, by simp [hidle.log], fun e he => absurd he (hnone e), by simp [hidle.history]⟩
  · simp [hidle.calls i] at hc
  · simp [hidle.calls i] at hc

theorem Books.exec (hidle : Idle s) {as : List (Action B O n)}
    (h : exec (Interleaving.step E program) s as = some s') : Books s' :=
  exec_induct (fun _ _ _ ht hstep => ht.step (step_cases hstep)) (.of_idle hidle) h

/-- The operation that an action starts. -/
def called : Action B O n → Option O
  | .call _ op => some op
  | .run _ | .fail _ | .others _ => none

/-- The calls that have been started, one for each ticket. -/
structure Started (ops : List O) (s : State B W Q R ε O α n) : Prop where
  tickets : s.tickets = ops.length
  op : ∀ e, Has s e → ops[e.ticket]? = some e.op
  has : ∀ t < s.tickets, ∃ e, Has s e ∧ e.ticket = t

theorem Started.moved {ops : List O} {s s' : State B W Q R ε O α n} (h : Started ops s)
    (htickets : s'.tickets = s.tickets)
    (hback : ∀ e, Has s' e → ∃ e', Has s e' ∧ e'.ticket = e.ticket ∧ e'.op = e.op)
    (hforth : ∀ e, Has s e → ∃ e', Has s' e' ∧ e'.ticket = e.ticket) : Started ops s' := by
  refine ⟨htickets.trans h.tickets, fun e he => ?_, fun t ht => ?_⟩
  · obtain ⟨e', he', hticket, hop⟩ := hback e he
    rw [← hticket, ← hop]
    exact h.op e' he'
  · obtain ⟨e, he, rfl⟩ := h.has t (htickets ▸ ht)
    exact hforth e he

/-- A step other than a call starts nothing. -/
theorem Started.step {ops : List O} (h : Started ops s) (hs : Step E program s a s')
    (htickets : s'.tickets = s.tickets) : Started ops s' := by
  have hgoes : ∀ {i c c'}, s.calls i = some c → s'.log = s.log →
      s'.calls = Function.update s.calls i (some c') → c'.ticket = c.ticket ∧ c'.op = c.op →
      Started ops s' := by
    intro i c c' hc hlog hcalls hid
    refine h.moved htickets (fun e he => ?_) fun e he => ?_
    · rcases has_moved hlog hcalls he with rfl | ⟨he, -⟩
      · exact ⟨c.toEntry, .inl ⟨i, c, hc, rfl⟩, hid.1.symm, hid.2.symm⟩
      · exact ⟨e, he, rfl, rfl⟩
    · rcases has_of_moved hc hlog hcalls he with rfl | he
      · exact ⟨c'.toEntry, .inl ⟨i, c', by simp [hcalls], rfl⟩, hid.1⟩
      · exact ⟨e, he, rfl⟩
  cases hs with
  | called i op idle => exact absurd htickets (Nat.succ_ne_self _)
  | returned i c a hc hprog =>
    exact h.moved htickets (fun e he => ⟨e, (has_returned hc e).mp he, rfl, rfl⟩)
      fun e he => ⟨e, (has_returned hc e).mpr he, rfl⟩
  | dropped i c next hc hprog ha => exact hgoes hc rfl rfl ⟨rfl, rfl⟩
  | committed i c k b hc hprog hlive hview => exact hgoes hc rfl rfl ⟨rfl, rfl⟩
  | began i c q k b hc hprog hlive hsnapshot hview => exact hgoes hc rfl rfl ⟨rfl, rfl⟩
  | answered i c q k b₀ b hc hprog hlive hsnapshot hview hfree => exact hgoes hc rfl rfl ⟨rfl, rfl⟩
  | lost i c q k hc hprog hlost ha => exact hgoes hc rfl rfl ⟨rfl, rfl⟩
  | others b hforeign =>
    exact h.moved rfl (fun e he => ⟨e, he, rfl, rfl⟩) fun e he => ⟨e, he, rfl⟩

theorem Started.called {ops : List O} (h : Started ops s) {i : Fin n} {op : O}
    (idle : s.calls i = none) (hcalls : s'.calls = Function.update s.calls i (some (s.first program op)))
    (htickets : s'.tickets = s.tickets + 1) (hlog : s'.log = s.log) :
    Started (ops ++ [op]) s' := by
  have hfirst : Has s' (s.first program op).toEntry :=
    .inl ⟨i, s.first program op, by simp [hcalls], rfl⟩
  refine ⟨by simp [htickets, h.tickets], fun e he => ?_, fun t ht => ?_⟩
  · rcases has_moved hlog hcalls he with rfl | ⟨he, -⟩
    · simp [State.first, h.tickets]
    · have hop := h.op e he
      rw [List.getElem?_append_left (List.getElem?_eq_some_iff.mp hop).1]
      exact hop
  · rw [htickets] at ht
    rcases Nat.lt_succ_iff_lt_or_eq.mp ht with ht | rfl
    · obtain ⟨e, he, rfl⟩ := h.has t ht
      refine ⟨e, ?_, rfl⟩
      rcases he with ⟨j, d, hd, rfl⟩ | ⟨d, hd, rfl⟩
      · refine .inl ⟨j, d, ?_, rfl⟩
        rw [hcalls, Function.update_of_ne, hd]
        rintro rfl
        simp [idle] at hd
      · exact .inr ⟨d, hlog ▸ hd, rfl⟩
    · exact ⟨_, hfirst, rfl⟩

theorem Started.action {ops : List O} (h : Started ops s)
    (hs : Interleaving.step E program s a = some s') : Started (ops ++ (Bookkeeping.called a).toList) s' := by
  have hput : ∀ i c m, (s.put i c m).tickets = s.tickets := fun i c m => by cases m <;> rfl
  cases a with
  | call i op =>
    simp only [Interleaving.step] at hs
    split at hs
    · cases hs
    · rename_i idle
      cases hs
      exact h.called idle rfl rfl rfl
  | run i =>
    rw [Bookkeeping.called, Option.toList_none, List.append_nil]
    refine h.step (step_cases hs) ?_
    obtain ⟨c, -, hs⟩ := Option.bind_eq_some_iff.mp hs
    obtain ⟨m, -, rfl⟩ := Option.map_eq_some_iff.mp hs
    exact hput i c m
  | fail i =>
    rw [Bookkeeping.called, Option.toList_none, List.append_nil]
    refine h.step (step_cases hs) ?_
    obtain ⟨-, hs⟩ := Option.ite_none_right_eq_some.mp hs
    obtain ⟨c, -, hs⟩ := Option.bind_eq_some_iff.mp hs
    obtain ⟨c', -, rfl⟩ := Option.map_eq_some_iff.mp hs
    exact hput i c _
  | others b =>
    rw [Bookkeeping.called, Option.toList_none, List.append_nil]
    refine h.step (step_cases hs) ?_
    obtain ⟨-, hs⟩ := Option.ite_none_right_eq_some.mp hs
    cases hs
    rfl

theorem Started.exec (hidle : Idle s) {as : List (Action B O n)}
    (h : exec (Interleaving.step E program) s as = some s') : Started (as.filterMap Bookkeeping.called) s' := by
  have hstart : Started ([] : List O) s := by
    refine ⟨hidle.tickets, fun e he => ?_, fun t ht => ?_⟩
    · rcases he with ⟨i, c, hc, -⟩ | ⟨d, hd, -⟩
      · simp [hidle.calls i] at hc
      · simp [hidle.log] at hd
    · simp [hidle.tickets] at ht
  suffices ∀ (ops : List O) (s : State B W Q R ε O α n), Started ops s →
      Machine.exec (Interleaving.step E program) s as = some s' →
      Started (ops ++ as.filterMap Bookkeeping.called) s' from this [] s hstart h
  clear hidle hstart h
  induction as with
  | nil =>
    rintro ops s hs h
    cases h
    simpa using hs
  | cons a as ih =>
    rintro ops s hs h
    obtain ⟨t, ht, h⟩ := Option.bind_eq_some_iff.mp h
    have hrest := ih _ t (hs.action ht) h
    rw [List.append_assoc] at hrest
    cases hcalled : Bookkeeping.called a with
    | none => simpa [hcalled] using hrest
    | some op => simpa [hcalled] using hrest

/-- A statement some call has asked, with its answer. -/
def Answered (s : State B W Q R ε O α n) (x : Asked Q R ε) : Prop :=
  ∃ e, Has s e ∧ x ∈ e.loc.trace

theorem Answered.moved {i : Fin n} {c c' : Call B W Q R ε O α} {x : Asked Q R ε} {xs : List (Asked Q R ε)}
    (hc : s.calls i = some c) (hlog : s'.log = s.log)
    (hcalls : s'.calls = Function.update s.calls i (some c'))
    (htrace : c'.loc.trace = c.loc.trace ++ xs) : Answered s' x ↔ Answered s x ∨ x ∈ xs := by
  constructor
  · rintro ⟨e, he, hx⟩
    rcases has_moved hlog hcalls he with rfl | ⟨he, -⟩
    · rw [htrace] at hx
      exact (List.mem_append.mp hx).imp_left fun hx => ⟨c.toEntry, .inl ⟨i, c, hc, rfl⟩, hx⟩
    · exact .inl ⟨e, he, hx⟩
  · have hmine : Has s' c'.toEntry := .inl ⟨i, c', by simp [hcalls], rfl⟩
    rintro (⟨e, he, hx⟩ | hx)
    · rcases has_of_moved hc hlog hcalls he with rfl | he
      · exact ⟨_, hmine, htrace ▸ List.mem_append_left _ hx⟩
      · exact ⟨e, he, hx⟩
    · exact ⟨_, hmine, htrace ▸ List.mem_append_right _ hx⟩

theorem answered_called {i : Fin n} {op : O} {x : Asked Q R ε} (idle : s.calls i = none)
    (hcalls : s'.calls = Function.update s.calls i (some (s.first program op)))
    (hlog : s'.log = s.log) : Answered s' x ↔ Answered s x := by
  constructor
  · rintro ⟨e, he, hx⟩
    rcases has_moved hlog hcalls he with rfl | ⟨he, -⟩
    · cases hx
    · exact ⟨e, he, hx⟩
  · rintro ⟨e, ⟨j, d, hd, rfl⟩ | ⟨d, hd, rfl⟩, hx⟩
    · refine ⟨d.toEntry, .inl ⟨j, d, ?_, rfl⟩, hx⟩
      rw [hcalls, Function.update_of_ne, hd]
      rintro rfl
      simp [idle] at hd
    · exact ⟨d.toEntry, .inr ⟨d, hlog ▸ hd, rfl⟩, hx⟩

/-- Where the answer of a statement comes from: the statement completes in this step, or it is
lost in it. -/
inductive Answers (E : Engine B W Q R ε) (s : State B W Q R ε O α n) (a : Action B O n) :
    Asked Q R ε → Prop
  | completes (i : Fin n) (c : Call B W Q R ε O α) (q : Q) (k : Except ε (R q) → Prog Q R ε α)
      (b₀ b : B) (ha : a = .run i) (hc : s.calls i = some c) (hprog : c.prog = .stmt q k)
      (hlive : c.loc.aborted = false) (hsnapshot : c.snapshot = some b₀)
      (hview : E.view c.loc.writes s.base = some b) : Answers E s a ⟨q, E.answer q b₀ b⟩
  | lost (i : Fin n) (c : Call B W Q R ε O α) (q : Q) (hc : s.calls i = some c)
      (hlost : E.fails = true ∨ c.loc.aborted = true) : Answers E s a ⟨q, .error E.lost⟩

/-- One step answers at most the statement it is about, and no answer is taken back. -/
theorem Answered.step (hs : Step E program s a s') {x : Asked Q R ε} :
    (Answered s x → Answered s' x) ∧ (Answered s' x → Answered s x ∨ Answers E s a x) := by
  have hmoved : ∀ {i c c'} xs, s.calls i = some c → s'.log = s.log →
      s'.calls = Function.update s.calls i (some c') → c'.loc.trace = c.loc.trace ++ xs →
      (∀ x ∈ xs, Answers E s a x) →
      (Answered s x → Answered s' x) ∧ (Answered s' x → Answered s x ∨ Answers E s a x) := by
    intro i c c' xs hc hlog hcalls htrace hxs
    have hiff := Answered.moved (x := x) hc hlog hcalls htrace
    exact ⟨fun h => hiff.mpr (.inl h), fun h => (hiff.mp h).imp_right (hxs x)⟩
  cases hs with
  | called i op idle =>
    have hiff : Answered { s with
        calls := Function.update s.calls i (some (s.first program op)), tickets := s.tickets + 1 } x ↔
        Answered s x := answered_called idle rfl rfl
    exact ⟨hiff.mpr, fun h => .inl (hiff.mp h)⟩
  | returned i c r hc hprog =>
    have hiff : Answered (s.put i c (.returns r)) x ↔ Answered s x := by
      simp only [Answered, has_returned hc]
    exact ⟨hiff.mpr, fun h => .inl (hiff.mp h)⟩
  | dropped i c next hc hprog ha => exact hmoved [] hc rfl rfl (by simp [Call.dropped]) (by simp)
  | committed i c k b hc hprog hlive hview =>
    exact hmoved [] hc rfl rfl (by simp [Call.published]) (by simp)
  | began i c q k b hc hprog hlive hsnapshot hview =>
    exact hmoved [] hc rfl rfl (by simp [Call.began]) (by simp)
  | answered i c q k b₀ b hc hprog hlive hsnapshot hview hfree =>
    refine hmoved _ hc rfl rfl rfl fun x hx => ?_
    rw [List.mem_singleton.mp hx]
    exact .completes i c q k b₀ b rfl hc hprog hlive hsnapshot hview
  | lost i c q k hc hprog hlost ha =>
    refine hmoved _ hc rfl rfl rfl fun x hx => ?_
    rw [List.mem_singleton.mp hx]
    exact .lost i c q hc hlost
  | others b hforeign => exact ⟨id, .inl⟩

theorem not_answered_of_idle (hidle : Idle s) (x : Asked Q R ε) : ¬ Answered s x := by
  rintro ⟨e, ⟨i, c, hc, -⟩ | ⟨d, hd, -⟩, -⟩
  · simp [hidle.calls i] at hc
  · simp [hidle.log] at hd

/-- The commits lead from one database to the other. -/
def Trail (b : B) : List (Commit B W Q R ε O) → B → Prop
  | [], b' => b = b'
  | c :: cs, b' => c.base = b ∧ Trail c.next cs b'

theorem trail_append {b b' : B} {h : List (Commit B W Q R ε O)} (ht : Trail b h b')
    {c : Commit B W Q R ε O} (hc : c.base = b') : Trail b (h ++ [c]) c.next := by
  induction h generalizing b with
  | nil => exact ⟨hc.trans ht.symm, rfl⟩
  | cons d ds ih => exact ⟨ht.1, ih ht.2⟩

/-- The run has gone through this database. -/
def Passed (h : List (Commit B W Q R ε O)) (b v : B) : Prop :=
  v = b ∨ ∃ c ∈ h, v = c.base ∨ v = c.next

section Passed

variable {h : List (Commit B W Q R ε O)} {b v : B} {c : Commit B W Q R ε O}

theorem passed_now : Passed h b b :=
  .inl rfl

theorem Passed.later (hv : Passed h c.base v) : Passed (h ++ [c]) c.next v := by
  rcases hv with rfl | ⟨d, hd, hv⟩
  · exact .inr ⟨c, List.mem_append_right _ (List.mem_singleton.mpr rfl), .inl rfl⟩
  · exact .inr ⟨d, List.mem_append_left _ hd, hv⟩

theorem passed_append : Passed (h ++ [c]) c.next v ↔ Passed h c.base v ∨ v = c.next := by
  constructor
  · rintro (rfl | ⟨d, hd, hv⟩)
    · exact .inr rfl
    · rcases List.mem_append.mp hd with hd | hd
      · exact .inl (.inr ⟨d, hd, hv⟩)
      · obtain rfl := List.mem_singleton.mp hd
        exact hv.imp .inl id
  · rintro (hv | rfl)
    · exact hv.later
    · exact passed_now

end Passed

/-- What one entry of the history did to the database. -/
def Happened (E : Engine B W Q R ε) (c : Commit B W Q R ε O) : Prop :=
  (c.author.isSome ∧ E.view c.writes c.base = some c.next) ∨
    (c.author = none ∧ c.writes = [] ∧ ∃ ws, E.foreign ws c.base c.next = true)

theorem By.view {t : ℕ} {c : Commit B W Q R ε O} (h : By t c) (hc : Happened E c) :
    E.view c.writes c.base = some c.next := by
  obtain ⟨a, ha, -⟩ := h
  rcases hc with ⟨-, hview⟩ | ⟨hnone, -⟩
  · exact hview
  · simp [hnone] at ha

/-- The history leads from the first database to the present one, each call's commit by
publishing its writes. -/
structure Recorded (E : Engine B W Q R ε) (b : B) (s : State B W Q R ε O α n) : Prop where
  trail : Trail b s.history s.base
  happened : ∀ c ∈ s.history, Happened E c

theorem Recorded.append {b : B} {s s' : State B W Q R ε O α n} (h : Recorded E b s)
    {c : Commit B W Q R ε O} (hhistory : s'.history = s.history ++ [c]) (hfrom : c.base = s.base)
    (hto : c.next = s'.base) (hc : Happened E c) : Recorded E b s' := by
  refine ⟨?_, fun e he => ?_⟩
  · rw [hhistory, ← hto]
    exact trail_append h.trail hfrom
  · rw [hhistory] at he
    rcases List.mem_append.mp he with he | he
    · exact h.happened e he
    · exact List.mem_singleton.mp he ▸ hc

theorem Recorded.step {b : B} (h : Recorded E b s) (hs : Step E program s a s') :
    Recorded E b s' := by
  cases hs with
  | called i op idle => exact ⟨h.trail, h.happened⟩
  | returned i c a hc hprog => exact ⟨h.trail, h.happened⟩
  | dropped i c next hc hprog ha => exact ⟨h.trail, h.happened⟩
  | committed i c k b hc hprog hlive hview => exact h.append rfl rfl rfl (.inl ⟨rfl, hview⟩)
  | began i c q k b hc hprog hlive hsnapshot hview => exact ⟨h.trail, h.happened⟩
  | answered i c q k b₀ b hc hprog hlive hsnapshot hview hfree => exact ⟨h.trail, h.happened⟩
  | lost i c q k hc hprog hlost ha => exact ⟨h.trail, h.happened⟩
  | others b hforeign => exact h.append rfl rfl rfl (.inr ⟨rfl, rfl, s.held, hforeign⟩)

theorem Recorded.exec (hidle : Idle s) {as : List (Action B O n)}
    (h : exec (Interleaving.step E program) s as = some s') : Recorded E s.base s' := by
  refine exec_induct (fun t a t' ht hstep => ht.step (step_cases hstep)) ?_ h
  exact ⟨by simp [hidle.history, Trail], by simp [hidle.history]⟩

end Tekir.Bookkeeping
