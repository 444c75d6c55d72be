import EventScript.Proofs.Resolution.Rules

/-!
# Breaches of the static rules

A breach is a site of a program together with a rule that it breaks. Diagnostics report breaches
exactly if they are one for each (`Breach.ReportedBy`). This is put together along the tree: a node
has the breaches at its own site and those inside its children, and no two of these regions share a
site.
-/

namespace EventScript

/-- A rule that a site breaks, and where that is reported. -/
structure Breach where
  site : Site
  violation : Violation
  span : Span

namespace Breach

/-- The site does break the rule. -/
def Real (breach : Breach) : Prop := breach.site.Breaks breach.violation breach.span

/-- The one diagnostic of the breach. -/
def diagnostic (breach : Breach) : Diagnostic := breach.violation.diagnostic breach.span

/-- Of all breaches these are reported, each by exactly one of the diagnostics. -/
def ReportedBy (which : Breach → Prop) (diagnostics : List Diagnostic) : Prop :=
  ∃ found : List Breach, found.Nodup ∧ (∀ breach, breach ∈ found ↔ which breach) ∧
    diagnostics.Perm (found.map diagnostic)

variable {which first second : Breach → Prop} {diagnostics more : List Diagnostic}

/-- Diagnostics that report some breaches report the same ones said otherwise. -/
theorem ReportedBy.congr (reported : ReportedBy first diagnostics)
    (same : ∀ breach, which breach ↔ first breach) : ReportedBy which diagnostics := by
  obtain ⟨found, once, exact, listed⟩ := reported
  exact ⟨found, once, fun breach => (exact breach).trans (same breach).symm, listed⟩

/-- No diagnostics report that there are no breaches. -/
theorem reported_nil (no : ∀ breach, ¬which breach) : ReportedBy which [] :=
  ⟨[], .nil, fun breach => iff_of_false nofun (no breach), .nil⟩

/-- Nothing is reported exactly if there is no breach. -/
theorem ReportedBy.eq_nil_iff (reported : ReportedBy which diagnostics) :
    diagnostics = [] ↔ ∀ breach, ¬which breach := by
  obtain ⟨found, -, exact, listed⟩ := reported
  rw [← List.length_eq_zero_iff, listed.length_eq, List.length_map, List.length_eq_zero_iff,
    List.eq_nil_iff_forall_not_mem]
  exact forall_congr' fun breach => not_congr (exact breach)

/-- Breaches of two kinds that have none in common are reported one after the other. -/
theorem ReportedBy.append (left : ReportedBy first diagnostics) (right : ReportedBy second more)
    (apart : ∀ breach, first breach → ¬second breach)
    (same : ∀ breach, which breach ↔ first breach ∨ second breach) :
    ReportedBy which (diagnostics ++ more) := by
  obtain ⟨found, once, exact, listed⟩ := left
  obtain ⟨found', once', exact', listed'⟩ := right
  refine ⟨found ++ found', List.nodup_append.mpr ⟨once, once', ?_⟩, fun breach => ?_, ?_⟩
  · rintro breach member _ member' rfl
    exact apart breach ((exact _).mp member) ((exact' _).mp member')
  · rw [List.mem_append, exact, exact', same]
  · rw [List.map_append]
    exact listed.append listed'

/-- The order in which two lists of diagnostics come does not matter. -/
theorem ReportedBy.swap (reported : ReportedBy which (diagnostics ++ more)) :
    ReportedBy which (more ++ diagnostics) := by
  obtain ⟨found, once, exact, listed⟩ := reported
  exact ⟨found, once, exact, List.perm_append_comm.trans listed⟩

/-- A single breach is reported if it is real. -/
theorem reported_if (breach : Breach) {condition : Prop} [Decidable condition]
    (real : breach.Real ↔ condition) :
    ReportedBy (fun other => other = breach ∧ other.Real)
      (if condition then [breach.diagnostic] else []) := by
  split
  · rename_i holds
    refine ⟨[breach], List.pairwise_singleton .., fun other => List.mem_singleton.trans ?_, .rfl⟩
    exact ⟨fun same => ⟨same, same ▸ real.mpr holds⟩, And.left⟩
  · rename_i fails
    exact reported_nil fun other ⟨same, broken⟩ => fails (real.mp (same ▸ broken))

/-! ## Regions -/

/-- The breach is at that very site. -/
def At (site : Site) (breach : Breach) : Prop := breach.site = site ∧ breach.Real

/-- The breach is at the site or inside it. -/
def Inside (site : Site) (breach : Breach) : Prop := site.Inside breach.site ∧ breach.Real

/-- The breach is inside one of the children from a position on. -/
def Among (around : Site) (position : Nat) (nodes : List Node) (breach : Breach) : Prop :=
  around.Among position nodes breach.site ∧ breach.Real

variable {around : Site} {position : Nat} {node : Node} {step : Step}

/-- No diagnostics report that a site breaks no rule. -/
theorem reported_at_nil {site : Site} (no : ∀ violation span, ¬site.Breaks violation span) :
    ReportedBy (At site) [] := by
  refine reported_nil ?_
  rintro ⟨_, violation, span⟩ ⟨rfl, real⟩
  exact no violation span real

/-- A site that can break only one rule. -/
theorem reported_at_one {site : Site} {violation : Violation} {span : Span} {condition : Prop}
    [Decidable condition] (real : site.Breaks violation span ↔ condition)
    (only : ∀ other target, site.Breaks other target → other = violation ∧ target = span) :
    ReportedBy (At site) (if condition then [violation.diagnostic span] else []) := by
  apply (reported_if ⟨site, violation, span⟩ real).congr
  intro breach
  constructor
  · rintro ⟨rfl, broken⟩
    obtain ⟨rfl, rfl⟩ := only _ _ broken
    exact ⟨rfl, broken⟩
  · rintro ⟨rfl, broken⟩
    exact ⟨rfl, broken⟩

/-- A site that can break only two different rules. -/
theorem reported_at_two {site : Site} {violation violation' : Violation} {span span' : Span}
    {condition condition' : Prop} [Decidable condition] [Decidable condition']
    (differ : violation ≠ violation') (real : site.Breaks violation span ↔ condition)
    (real' : site.Breaks violation' span' ↔ condition')
    (only : ∀ other target, site.Breaks other target →
      other = violation ∧ target = span ∨ other = violation' ∧ target = span') :
    ReportedBy (At site) ((if condition then [violation.diagnostic span] else []) ++
      if condition' then [violation'.diagnostic span'] else []) := by
  have first := reported_if ⟨site, violation, span⟩ real
  have second := reported_if ⟨site, violation', span'⟩ real'
  apply first.append second
  · rintro breach ⟨rfl, -⟩ ⟨same, -⟩
    exact differ (congrArg Breach.violation same)
  · intro breach
    constructor
    · rintro ⟨rfl, broken⟩
      rcases only _ _ broken with ⟨rfl, rfl⟩ | ⟨rfl, rfl⟩
      · exact .inl ⟨rfl, broken⟩
      · exact .inr ⟨rfl, broken⟩
    · rintro (⟨rfl, broken⟩ | ⟨rfl, broken⟩)
      · exact ⟨rfl, broken⟩
      · exact ⟨rfl, broken⟩

/-- No diagnostics report on no nodes. -/
theorem reported_among_nil : ReportedBy (Among around position []) [] :=
  reported_nil fun _ ⟨among, _⟩ => Site.among_nil among

/-- The breaches inside a node, and then those inside the nodes behind it. -/
theorem ReportedBy.cons {rest : List Node}
    (head : ReportedBy (Inside (⟨position, node⟩ :: around)) diagnostics)
    (tail : ReportedBy (Among around (position + 1) rest) more) :
    ReportedBy (Among around position (node :: rest)) (diagnostics ++ more) := by
  apply head.append tail
  · intro breach inside among
    exact Site.not_inside_of_among among.1 inside.1
  · intro breach
    exact (and_congr_left' Site.among_cons).trans or_and_right

/-- What reports on one node reports on the list of it alone. -/
theorem ReportedBy.single (only : ReportedBy (Inside (⟨position, node⟩ :: around)) diagnostics) :
    ReportedBy (Among around position [node]) diagnostics := by
  rw [← List.append_nil diagnostics]
  exact only.cons reported_among_nil

/-- The breaches at a site, and then those inside its children. -/
theorem ReportedBy.whole (own : ReportedBy (At (step :: around)) diagnostics)
    (inner : ReportedBy (Among (step :: around) 0 step.node.children) more) :
    ReportedBy (Inside (step :: around)) (diagnostics ++ more) := by
  refine own.append inner ?_ fun breach => ?_
  · exact fun breach here among => Site.ne_of_among among.1 here.1
  · exact (and_congr_left' Site.inside_iff).trans or_and_right

/-- The breaches at a site without children. -/
theorem ReportedBy.leaf (own : ReportedBy (At (step :: around)) diagnostics)
    (bare : step.node.children = []) : ReportedBy (Inside (step :: around)) diagnostics := by
  rw [← List.append_nil diagnostics]
  refine own.whole ?_
  rw [bare]
  exact reported_among_nil

/-- The breaches inside the children of a site that breaks no rule itself. -/
theorem ReportedBy.inner
    (inner : ReportedBy (Among (step :: around) 0 step.node.children) diagnostics)
    (no : ∀ violation span, ¬Site.Breaks (step :: around) violation span) :
    ReportedBy (Inside (step :: around)) diagnostics :=
  (reported_at_nil no).whole inner

end Breach

end EventScript
