import Mathlib.Data.List.Nodup

/-! Logs whose entries have keys, where entries of different keys commute: what a log makes of a state depends only
    on what each key has seen. -/

namespace Lib

/-- Entries of different keys commute. -/
def Independent {β γ κ : Type*} (act : β → γ → β) (key : γ → κ) : Prop :=
  ∀ b x y, key x ≠ key y → act (act b x) y = act (act b y) x

section
variable {β γ κ : Type*} {act : β → γ → β} {key : γ → κ}

/-- An entry moves to the front past entries of other keys. -/
theorem Independent.foldl_move (h : Independent act key) {x : γ} {before : List γ}
    (hbefore : ∀ y ∈ before, key y ≠ key x) (after : List γ) (b : β) :
    (before ++ x :: after).foldl act b = (x :: (before ++ after)).foldl act b := by
  induction before generalizing b with
  | nil => rfl
  | cons y before ih =>
    have hy : key y ≠ key x := hbefore y List.mem_cons_self
    calc (y :: before ++ x :: after).foldl act b
        = (before ++ x :: after).foldl act (act b y) := rfl
      _ = (before ++ after).foldl act (act (act b y) x) := ih (fun z hz => hbefore z (List.mem_cons_of_mem y hz)) _
      _ = (before ++ after).foldl act (act (act b x) y) := by rw [h b y x hy]
      _ = (x :: (y :: before ++ after)).foldl act b := rfl

variable [DecidableEq κ]

/-- The entries of one key, in their order. -/
def ofKey (key : γ → κ) (k : κ) (log : List γ) : List γ := log.filter (key · == k)

theorem ofKey_cons_self (x : γ) (log : List γ) : ofKey key (key x) (x :: log) = x :: ofKey key (key x) log :=
  List.filter_cons_of_pos (beq_self_eq_true _)

theorem ofKey_cons_ne {x : γ} {k : κ} (h : key x ≠ k) (log : List γ) : ofKey key k (x :: log) = ofKey key k log :=
  List.filter_cons_of_neg (by simpa using h)

theorem ofKey_append (k : κ) (log log' : List γ) : ofKey key k (log ++ log') = ofKey key k log ++ ofKey key k log' :=
  List.filter_append ..

/-- The first entry of its key comes after entries of other keys only, and without it the log has the rest. -/
theorem split_of_ofKey {x : γ} {log rest : List γ} (h : ofKey key (key x) log = x :: rest) :
    ∃ before after, log = before ++ x :: after ∧ (∀ y ∈ before, key y ≠ key x) ∧
      ofKey key (key x) (before ++ after) = rest := by
  obtain ⟨before, after, hlog, hbefore, -, hafter⟩ := List.filter_eq_cons_iff.mp h
  refine ⟨before, after, hlog, fun y hy heq => hbefore y hy (beq_iff_eq.mpr heq), ?_⟩
  rw [ofKey_append, ofKey, List.filter_eq_nil_iff.mpr hbefore]
  exact hafter

/-- Two logs with the same entries for each key make the same of a state. -/
theorem Independent.foldl_eq (h : Independent act key) {log log' : List γ}
    (hsame : ∀ k, ofKey key k log = ofKey key k log') (b : β) : log.foldl act b = log'.foldl act b := by
  induction log generalizing log' b with
  | nil =>
    cases log' with
    | nil => rfl
    | cons y log' => exact nomatch (hsame (key y)).trans (ofKey_cons_self y log')
  | cons x log ih =>
    have hfirst := (hsame (key x)).symm.trans (ofKey_cons_self x log)
    obtain ⟨before, after, rfl, hbefore, hrest⟩ := split_of_ofKey hfirst
    have hwithout : ∀ k, ofKey key k log = ofKey key k (before ++ after) := by
      intro k
      by_cases hk : key x = k
      · rw [← hk, hrest]
      · have hlog := hsame k
        rwa [ofKey_cons_ne hk, ofKey_append, ofKey_cons_ne hk, ← ofKey_append] at hlog
    rw [h.foldl_move hbefore, List.foldl_cons, List.foldl_cons]
    exact ih hwithout (act b x)

/-- In a permuted log of distinct keys each key still has its one entry. -/
theorem ofKey_of_perm {log log' : List γ} (hperm : log.Perm log') (hnodup : (log.map key).Nodup) (k : κ) :
    ofKey key k log = ofKey key k log' := by
  have hone : (ofKey key k log).length ≤ 1 := by
    have hcount := List.nodup_iff_count_le_one.mp hnodup k
    rwa [List.count, List.countP_map, List.countP_eq_length_filter] at hcount
  have hentries : (ofKey key k log).Perm (ofKey key k log') := hperm.filter _
  match hlog : ofKey key k log, hone with
  | [], _ => exact (List.nil_perm.mp (hlog ▸ hentries)).symm
  | [x], _ => exact List.singleton_perm.mp (hlog ▸ hentries)

end
end Lib
