import RequestFeed.Filter.Config
import RequestFeed.Proofs.Header.Grammar
/-!
# Selecting and recording protocols

A protocol is selected by what a client offers, and recorded by its name alone. The two agree unless
the name that stands for plain requests is also configured as the name of a multiplexed protocol:
then a client that offers nothing multiplexed is taken for one that does.

*Specification.* `ProtocolSelector.Chosen`: what is to be selected. `ProtocolSelector.Agrees`: what
is to be selected and recorded.

*Results.*
* `ProtocolSelector.select_of_valid` and `ProtocolSelector.select_congr`: what is selected, and that
  the order of the offers has no bearing on it.
* `ProtocolSelector.select_agrees_iff`: when that agrees with what is recorded.
-/

namespace RequestFeed

namespace ProtocolName

theorem checkAll_eq_ok_iff {names : List String} :
    checkAll names = .ok () ↔ ∀ name ∈ names, check name = .ok () := by
  induction names with
  | nil => simp [checkAll]
  | cons name rest ih =>
    simp only [checkAll, bind, Except.bind_eq_ok_iff, ih, List.forall_mem_cons]
    constructor
    · rintro ⟨⟨⟩, hname, hrest⟩
      exact ⟨hname, hrest⟩
    · rintro ⟨hname, hrest⟩
      exact ⟨(), hname, hrest⟩

end ProtocolName

namespace ProtocolSelector

/-- A selector that speaks these protocols has been accepted. -/
inductive Made : List String → ProtocolSelector → Prop where
  | ofNames {names : List String} {s : ProtocolSelector} : ofNames names = .ok s → Made names s
  | ofConfig {c : FilterConfig} {s : ProtocolSelector} : c.selector = .ok s → Made c.protocols s

/-- What is selected of the protocols that this side speaks, given those that a client offers. -/
inductive Chosen (names offered : List String) : String → Prop where
  /-- The best of those that are offered. -/
  | best {name : String} {better others : List String} : names = better ++ name :: others →
      (∀ other ∈ better, other ∉ offered) → name ∈ offered → Chosen names offered name
  | fallback : (∀ name ∈ names, name ∉ offered) → Chosen names offered ProtocolName.fallback

/-- The protocol that was selected and the one that was recorded are what this side and the client
can agree on. -/
structure Agrees (names offered : List String) (name : String) (state : ProtocolState) : Prop where
  multiplexed_iff : state = .multiplexed ↔ ∃ o ∈ offered, o ∈ names
  best : (∃ o ∈ offered, o ∈ names) → ∃ better others, names = better ++ name :: others ∧
    (∀ other ∈ better, other ∉ offered) ∧ name ∈ offered
  plain : (¬ ∃ o ∈ offered, o ∈ names) → name = ProtocolName.fallback ∧ state = .plain

variable {names offered : List String} {name : String} {s : ProtocolSelector}

theorem Made.names_eq (h : Made names s) : s.names = names := by
  have hnames {names : List String} {s : ProtocolSelector}
      (h : ProtocolSelector.ofNames names = .ok s) : s.names = names := by
    simp only [ProtocolSelector.ofNames, bind, Except.bind_eq_ok_iff, pure, Except.pure,
      Except.ok.injEq] at h
    obtain ⟨-, -, rfl⟩ := h
    rfl
  cases h with
  | ofNames h => exact hnames h
  | @ofConfig c s h =>
    unfold FilterConfig.selector at h
    cases hmade : ProtocolSelector.ofNames c.protocols with
    | error e => simp [hmade] at h
    | ok made =>
      obtain rfl : made = s := by simpa [hmade] using h
      exact hnames hmade

theorem chosen_find? (names offered : List String) :
    Chosen names offered ((names.find? offered.contains).getD ProtocolName.fallback) := by
  cases hfind : names.find? offered.contains with
  | none =>
    refine .fallback fun name hname => ?_
    simpa using List.find?_eq_none.mp hfind name hname
  | some name =>
    obtain ⟨hname, better, others, hnames, hbetter⟩ := List.find?_eq_some_iff_append.mp hfind
    refine .best hnames (fun other hother => ?_) (by simpa using hname)
    simpa using hbetter other hother

/-- Valid offers are answered with what is to be chosen of them. -/
theorem select_of_valid (s : ProtocolSelector)
    (hvalid : ∀ o ∈ offered, ProtocolName.check o = .ok ()) :
    ∃ name, s.select offered = .ok name ∧ Chosen s.names offered name := by
  refine ⟨_, ?_, chosen_find? s.names offered⟩
  rw [select, ProtocolName.checkAll_eq_ok_iff.mpr hvalid]
  rfl

/-- The order of valid offers, and how often each is made, have no bearing on the choice. -/
theorem select_congr {others : List String} (s : ProtocolSelector)
    (hvalid : ∀ o ∈ offered, ProtocolName.check o = .ok ())
    (hsame : ∀ o, o ∈ others ↔ o ∈ offered) : s.select others = s.select offered := by
  have hcontains : others.contains = offered.contains := by
    funext o
    simp [hsame]
  have hothers : ∀ o ∈ others, ProtocolName.check o = .ok () :=
    fun o ho => hvalid o ((hsame o).mp ho)
  rw [select, select, ProtocolName.checkAll_eq_ok_iff.mpr hvalid,
    ProtocolName.checkAll_eq_ok_iff.mpr hothers, hcontains]

theorem outcome_eq_multiplexed_iff : s.outcome name = .multiplexed ↔ name ∈ s.names := by
  simp [outcome, isMultiplexed]

/-- A protocol that was chosen is recorded as what it is, unless it was not offered and has the name
of one that is multiplexed. -/
theorem Chosen.agrees_iff (h : Chosen s.names offered name) :
    Agrees s.names offered name (s.outcome name) ↔
      ProtocolName.fallback ∉ s.names ∨ ∃ o ∈ offered, o ∈ s.names := by
  cases h with
  | @best _ better others hnames hbetter hname =>
    have hspoken : name ∈ s.names := by simp [hnames]
    have hsome : ∃ o ∈ offered, o ∈ s.names := ⟨name, hname, hspoken⟩
    refine iff_of_true ?_ (Or.inr hsome)
    exact
      { multiplexed_iff := iff_of_true (outcome_eq_multiplexed_iff.mpr hspoken) hsome
        best := fun _ => ⟨better, others, hnames, hbetter, hname⟩
        plain := fun hnone => absurd hsome hnone }
  | fallback hnone =>
    have hnone : ¬ ∃ o ∈ offered, o ∈ s.names := fun ⟨o, ho, hspoken⟩ => hnone o hspoken ho
    simp only [hnone, or_false]
    constructor
    · intro hagrees hlisted
      exact hnone (hagrees.multiplexed_iff.mp (outcome_eq_multiplexed_iff.mpr hlisted))
    · intro hunlisted
      have hplain : s.outcome ProtocolName.fallback = .plain := by
        simp [outcome, isMultiplexed, hunlisted]
      exact
        { multiplexed_iff := iff_of_false (by simp [hplain]) hnone
          best := fun hsome => absurd hsome hnone
          plain := fun _ => ⟨rfl, hplain⟩ }

/-- Whatever valid names a client offers to a selector that has been accepted, something is
selected: the best protocol that is offered, or the one for plain requests. It depends only on which
names are offered. What is recorded agrees with it exactly when the name for plain requests is not
one of the multiplexed names, or a multiplexed protocol has been offered. -/
theorem select_agrees_iff (hmade : Made names s)
    (hvalid : ∀ o ∈ offered, ProtocolName.check o = .ok ()) :
    ∃ name, s.select offered = .ok name ∧ Chosen names offered name ∧
      (∀ others : List String, (∀ o, o ∈ others ↔ o ∈ offered) → s.select others = .ok name) ∧
      ∀ c : ConnectionContext,
        Agrees names offered name (s.apply name c).protocol ↔
          ProtocolName.fallback ∉ names ∨ ∃ o ∈ offered, o ∈ names := by
  obtain ⟨name, hselect, hchosen⟩ := s.select_of_valid hvalid
  obtain rfl := hmade.names_eq
  refine ⟨name, hselect, hchosen, fun others hsame => ?_, fun c => hchosen.agrees_iff⟩
  rw [s.select_congr hvalid hsame, hselect]

/-- A client that offers the second best of two protocols before the best, and twice, gets the
best. -/
theorem twoProtocols_agrees :
    let s : ProtocolSelector := ⟨["mx/2", "mx/1"]⟩
    let offered := ["h2", "mx/1", "mx/2", "mx/1"]
    Made s.names s ∧ (∀ o ∈ offered, ProtocolName.check o = .ok ()) ∧
      s.select offered = .ok "mx/2" ∧ (s.apply "mx/2" {}).protocol = .multiplexed ∧
      Agrees s.names offered "mx/2" (s.apply "mx/2" {}).protocol := by
  intro s offered
  have hmade : Made s.names s := .ofNames rfl
  have hvalid : ∀ o ∈ offered, ProtocolName.check o = .ok () := by
    simp only [offered, List.forall_mem_cons]
    exact ⟨rfl, rfl, rfl, rfl, nofun⟩
  have hselect : s.select offered = .ok "mx/2" := rfl
  obtain ⟨name, hname, -, -, hagrees⟩ := select_agrees_iff hmade hvalid
  obtain rfl : "mx/2" = name := Except.ok.inj (hselect.symm.trans hname)
  have hagrees := (hagrees {}).mpr (Or.inr ⟨"mx/1", by decide, by decide⟩)
  exact ⟨hmade, hvalid, hselect, by decide, hagrees⟩

/-- A configuration in which the name for plain requests is that of a multiplexed protocol. -/
def fallbackListed : FilterConfig := { protocols := [ProtocolName.fallback] }

/-- The configuration is valid. A client that offers none of its protocols is taken for one that
does. -/
theorem fallbackListed_disagrees :
    let s : ProtocolSelector := ⟨[ProtocolName.fallback]⟩
    fallbackListed.validate = .ok () ∧ Made fallbackListed.protocols s ∧
      ProtocolName.check "h2" = .ok () ∧ s.select ["h2"] = .ok ProtocolName.fallback ∧
      (s.apply ProtocolName.fallback {}).protocol = .multiplexed ∧
      ¬ Agrees fallbackListed.protocols ["h2"] ProtocolName.fallback .multiplexed := by
  intro s
  refine ⟨rfl, .ofConfig rfl, rfl, rfl, rfl, fun hagrees => ?_⟩
  obtain ⟨o, ho, hlisted⟩ := hagrees.multiplexed_iff.mp rfl
  obtain rfl := List.mem_singleton.mp ho
  exact absurd hlisted (by decide)

end ProtocolSelector
end RequestFeed
