import RedDB.Auth.Globs

namespace RedDB.Auth

open List Library

section

variable {first second input : List Char}

theorem fills_append : Fills (first ++ second) input ↔
    ∃ text rest, input = text ++ rest ∧ Fills first text ∧ Fills second rest := by
  induction first generalizing input with
  | nil => simp [Fills]
  | cons c first ih =>
    by_cases star : c = '*'
    · simp only [cons_append, Fills, if_pos star, ih]
      constructor
      · rintro ⟨skipped, _, rfl, text, rest, rfl, filled, behind⟩
        exact ⟨skipped ++ text, rest, (append_assoc ..).symm, ⟨skipped, text, rfl, filled⟩, behind⟩
      · rintro ⟨_, rest, rfl, ⟨skipped, text, rfl, filled⟩, behind⟩
        exact ⟨skipped, text ++ rest, append_assoc .., text, rest, rfl, filled, behind⟩
    · simp only [cons_append, Fills, if_neg star, ih]
      constructor
      · rintro ⟨_, rfl, text, rest, rfl, filled, behind⟩
        exact ⟨c :: text, rest, rfl, ⟨text, rfl, filled⟩, behind⟩
      · rintro ⟨_, rest, rfl, ⟨text, rfl, filled⟩, behind⟩
        exact ⟨text ++ rest, rfl, text, rest, rfl, filled, behind⟩

theorem fills_literal (literal : '*' ∉ first) : Fills first input ↔ input = first := by
  rw [fills_iff (splitOn_eq_singleton literal)]
  rfl

theorem fills_self (pattern : List Char) : Fills pattern pattern := by
  induction pattern with
  | nil => rfl
  | cons c pattern ih =>
    rw [Fills]
    split_ifs
    · exact ⟨[c], pattern, rfl, ih⟩
    · exact ⟨pattern, rfl, ih⟩

end

def ScopedName (name : List Char) : Prop := ¬ "tenant/".toList <+: name ∧ name ≠ "*".toList

def ResourcePattern.ImplicitlyScoped : ResourcePattern → Prop
  | .wildcard => False
  | .exact _ name => ScopedName name.toList
  | .glob raw => ∀ kind name, splitOnce ':' raw.toList = some (kind, name) → ScopedName name

/-- Somewhere the text has `:tenant/`, a tenant id that fills the given one, and `/`. -/
def Reaches (tenant target : List Char) : Prop :=
  ∃ lead id rest, target = lead ++ (":tenant/".toList ++ (id ++ ('/' :: rest))) ∧ Fills tenant id

def scopedText (kind tenant name : List Char) : List Char := kind ++ (":tenant/".toList ++ (tenant ++ ('/' :: name)))

theorem toList_qualifiedName (kind : String) {name : String} (tenant : String)
    (bare : ¬ "tenant/".toList <+: name.toList) :
    (qualifiedName kind name (some tenant)).toList = scopedText kind.toList tenant.toList name.toList := by
  have unscoped : startsWith name "tenant/" = false := decide_eq_false bare
  have slash : "/".toList = ['/'] := by decide
  rw [qualifiedName, unscoped, if_neg Bool.false_ne_true]
  simp only [String.toList_append, slash, scopedText, append_assoc, singleton_append]

theorem qualifiedPattern_eq {pkind pname : List Char} {ctx : EvalContext} {tenant : String}
    (current : ctx.currentTenant = some tenant) (implicit : ScopedName pname) :
    qualifiedPattern pkind pname ctx = scopedText pkind tenant.toList pname := by
  have colon : ":tenant/".toList = ":".toList ++ "tenant/".toList := by decide
  have slash : "/".toList = ['/'] := by decide
  rw [qualifiedPattern, if_neg (not_or.mpr implicit), current, scopedText, colon]
  simp only [slash, append_assoc, singleton_append]

theorem reaches_of_fills {kind tenant name target : List Char} (filled : Fills (scopedText kind tenant name) target) :
    Reaches tenant target := by
  obtain ⟨lead, _, rfl, -, behind⟩ := fills_append.mp filled
  obtain ⟨marker, _, rfl, literal, behind⟩ := fills_append.mp behind
  obtain ⟨id, _, rfl, own, behind⟩ := fills_append.mp behind
  rw [fills_literal (by decide)] at literal
  rw [Fills, if_neg (by decide)] at behind
  obtain ⟨rest, rfl, -⟩ := behind
  exact ⟨lead, id, rest, by rw [literal], own⟩

theorem reaches_of_globMatches {kind tenant name target : List Char}
    (matched : globMatches (compileGlob (scopedText kind tenant name)) target = true) : Reaches tenant target := by
  by_cases starred : '*' ∈ scopedText kind tenant name
  · exact reaches_of_fills ((globMatches_starred starred target).mp matched)
  · rw [compileGlob_literal starred, globMatches_inner] at matched
    obtain ⟨rest, rfl, -⟩ := matched
    exact ⟨kind, tenant, name ++ (rest ++ []), by simp [scopedText], fills_self tenant⟩

/-- Every pattern without a tenant of its own stays within the current tenant exactly on the resources of that tenant
    and on those whose flat text nowhere names a tenant that the current id covers. -/
theorem resourceMatches_within_tenant (resource : ResourceRef) (ctx : EvalContext) (tenant : String)
    (current : ctx.currentTenant = some tenant) :
    (∀ pat : ResourcePattern, pat.ImplicitlyScoped → resourceMatches pat resource ctx = true →
      resource.tenant = some tenant) ↔
    resource.tenant = some tenant ∨
      ¬ Reaches tenant.toList (qualifiedName resource.kind resource.name resource.tenant).toList := by
  constructor
  · intro within
    refine or_iff_not_imp_left.mpr fun foreign reaches => foreign (within (.glob "*:**") ?_ ?_)
    -- of all patterns in question `*:**` matches the most
    all_goals
      have split : splitOnce ':' "*:**".toList = some ("*".toList, "**".toList) := by decide +kernel
    · intro kind name parts
      rw [split] at parts
      cases parts
      exact ⟨by decide +kernel, by decide +kernel⟩
    · obtain ⟨lead, id, rest, target, own⟩ := reaches
      have filled : Fills (scopedText "*".toList tenant.toList "**".toList)
          (lead ++ (":tenant/".toList ++ (id ++ ('/' :: rest)))) := by
        refine fills_append.mpr ⟨lead, _, rfl, by simp [Fills], fills_append.mpr ⟨_, _, rfl, fills_self _, ?_⟩⟩
        refine fills_append.mpr ⟨id, _, rfl, own, ?_⟩
        simpa [Fills] using ⟨rest, [], (append_nil rest).symm⟩
      have starred : '*' ∈ scopedText "*".toList tenant.toList "**".toList := by simp [scopedText]
      have pattern : qualifiedPattern "*".toList "**".toList ctx = scopedText "*".toList tenant.toList "**".toList :=
        qualifiedPattern_eq current ⟨by decide, by decide⟩
      simp only [resourceMatches, split, pattern, target]
      simpa using (globMatches_starred starred _).mpr filled
  · rintro (own | apart) pat implicit matched
    · exact own
    refine absurd ?_ apart
    cases pat with
    | wildcard => exact absurd implicit id
    | exact kind name =>
      have unscoped : startsWith name "tenant/" = false := decide_eq_false implicit.1
      simp only [resourceMatches, unscoped, Bool.false_eq_true, if_false] at matched
      split_ifs at matched
      rw [← beq_iff_eq.mp matched, current, toList_qualifiedName _ _ implicit.1]
      exact reaches_of_fills (fills_self _)
    | glob raw =>
      cases split : splitOnce ':' raw.toList with
      | none => simp only [resourceMatches, split, Bool.false_eq_true] at matched
      | some parts =>
        obtain ⟨pkind, pname⟩ := parts
        simp only [resourceMatches, split, qualifiedPattern_eq current (implicit pkind pname split)] at matched
        split_ifs at matched
        exact reaches_of_globMatches matched

def requestIn (tenant : String) : EvalContext := ⟨some tenant, some tenant, none, false, 0, false, false⟩

/-- A pattern of tenant `a` reaches into the tenant `a/b`, and one of the tenant `*` into all. -/
theorem tenant_separator_escapes : (ResourcePattern.exact "table" "b/x").ImplicitlyScoped ∧
      resourceMatches (.exact "table" "b/x") ⟨"table", "x", some "a/b"⟩ (requestIn "a") = true ∧
      resourceMatches (.glob "table:x*") ⟨"table", "x1", some "b"⟩ (requestIn "*") = true ∧
      resourceMatches (.glob "*:x*") ⟨"table", "y:tenant/a/x", some "b"⟩ (requestIn "a") = true := by
  refine ⟨⟨?_, ?_⟩, ?_, ?_, ?_⟩ <;> decide +kernel

theorem resourceMatches_within_tenant_glob :
    resourceMatches (.glob "*:public.*") ⟨"table", "public.orders", some "b"⟩ (requestIn "acme") = false := by
  have apart : ¬ Reaches "acme".toList (qualifiedName "table" "public.orders" (some "b")).toList := by
    rintro ⟨lead, id, rest, target, own⟩
    obtain rfl := (fills_literal (by decide)).mp own
    have occurs : ":tenant/acme/".toList <:+: (qualifiedName "table" "public.orders" (some "b")).toList :=
      ⟨lead, rest, by rw [target, append_assoc]; rfl⟩
    exact absurd occurs (by decide +kernel)
  have implicit : (ResourcePattern.glob "*:public.*").ImplicitlyScoped := by
    intro kind name parts
    rw [show splitOnce ':' "*:public.*".toList = some ("*".toList, "public.*".toList) by decide +kernel] at parts
    cases parts
    exact ⟨by decide +kernel, by decide +kernel⟩
  refine Bool.eq_false_iff.mpr fun matched => ?_
  have own := (resourceMatches_within_tenant ⟨"table", "public.orders", some "b"⟩ (requestIn "acme") "acme" rfl).mpr
    (.inr apart) _ implicit matched
  exact absurd own (by decide)

end RedDB.Auth
