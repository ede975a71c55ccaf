import OmnibaseCore.Effect.Template

/-!
# The data of the caller in templates

A substitution comes to the data of the caller only at a placeholder `${input.field}` with a
field. The pattern that rejects raw queries and the pattern that is substituted are different
ones: what the second takes for such a placeholder is a place where the first stands too
(`search_of_placeholder`). So a raw query is resolved to the same text, or raises the same error,
for all data.
-/

namespace OmnibaseCore.Effect

/-! ## Placeholders -/

theorem afterPrefix_eq_some {p s rest : String} (h : afterPrefix p s = some rest) :
    s.toList = p.toList ++ rest.toList := by
  unfold afterPrefix at h
  split_ifs at h with hprefix
  rw [List.isPrefixOf_iff_prefix] at hprefix
  rcases hprefix with ⟨l, hl⟩
  have hrest : rest.toList = s.toList.drop p.toList.length := by
    rw [← Option.some.inj h, String.toList_ofList, String.length_toList]
  rw [hrest, ← hl, List.drop_left]

theorem exists_of_matchAt_templatePattern {atStart : Bool} {s : List Char} {m : Regex.Match}
    (h : templatePattern.matchAt atStart s = some m) :
    ∃ placeholder rest, placeholder ≠ [] ∧ (∀ c ∈ placeholder, c ≠ '}') ∧
      s = '$' :: '{' :: (placeholder ++ '}' :: rest) ∧
      m.group "1" = some (String.ofList placeholder) := by
  unfold Regex.matchAt at h
  cases hrun : templatePattern.run { atStart := atStart, rest := s, groups := [] } some with
  | none =>
    rw [hrun] at h
    exact nomatch h
  | some place =>
    rw [hrun] at h
    dsimp only at h
    split_ifs at h
    cases h
    unfold templatePattern at hrun
    rw [Regex.run_seq] at hrun
    rcases Regex.exists_of_run_char hrun with ⟨s₁, hs, _, hrun⟩
    rw [Regex.run_seq] at hrun
    rcases Regex.exists_of_run_char hrun with ⟨s₂, hs₁, _, hrun⟩
    rw [Regex.run_seq] at hrun
    have hplain : (Regex.plus (.chars fun c => c ≠ '}')).Plain := ⟨trivial, trivial⟩
    rcases Regex.exists_of_run_group hplain hrun with
      ⟨placeholder, hplaceholder, s₃, hs₂, _, hrun⟩
    rcases Regex.exists_of_run_char hrun with ⟨rest, hs₃, _, hplace⟩
    rw [Regex.mem_language_plus_chars] at hplaceholder
    refine ⟨placeholder, rest, hplaceholder.1, fun c hc => ?_, ?_, ?_⟩
    · exact of_decide_eq_true (hplaceholder.2 c hc)
    · dsimp only at hs hs₁ hs₂ hs₃
      rw [hs, hs₁, hs₂, hs₃]
    · rw [← Option.some.inj hplace]
      rfl

/-- Where a placeholder for a field of the input stands, `_INPUT_PATTERN` is found. -/
theorem search_of_placeholder {s : String} {before field rest : List Char} (hfield : field ≠ [])
    (hclass : ∀ c ∈ field, c ≠ '}')
    (hs : s.toList = before ++ ('$' :: '{' :: ("input.".toList ++ field ++ '}' :: rest))) :
    inputPattern.search s = true := by
  have hplain : inputPattern.Plain := ⟨Regex.plain_text _, ⟨trivial, trivial⟩, trivial⟩
  have hword : "$\x7binput.".toList ++ (field ++ ['}']) ∈ inputPattern.language := by
    refine Regex.mem_language_seq.mpr ⟨_, Regex.mem_language_text.mpr rfl, field ++ ['}'], ?_, rfl⟩
    refine Regex.mem_language_seq.mpr ⟨field, ?_, ['}'], Regex.mem_language_char.mpr rfl, rfl⟩
    exact Regex.mem_language_plus_chars.mpr ⟨hfield, fun c hc => decide_eq_true (hclass c hc)⟩
  have hnil : [] ∉ inputPattern.language := by
    intro h
    rcases Regex.mem_language_seq.mp h with ⟨u, hu, v, -, huv⟩
    rw [Regex.mem_language_text.mp hu] at huv
    exact nomatch huv
  have hplace : s.toList = before ++ ("$\x7binput.".toList ++ (field ++ ['}']) ++ rest) := by
    rw [hs]
    simp
  exact Regex.search_of_mem_language hplain hnil hword hplace

/-! ## What a placeholder depends on -/

section
variable (env : EffectEnvironment) (operationId : UUID)

theorem resolveTemplate_congr {placeholder : String}
    (h : ∀ field, afterPrefix "input." placeholder = some field → field = "")
    (data data' : Context) :
    resolveTemplate env data operationId placeholder =
      resolveTemplate env data' operationId placeholder := by
  unfold resolveTemplate
  cases hfield : afterPrefix "input." placeholder with
  | none => rfl
  | some field =>
    -- `input.` alone has no field, and `SAFE_FIELD_PATTERN` rejects the empty one
    rw [h field hfield]
    rfl

theorem resolveText_congr {template : String} (h : inputPattern.search template = false)
    (data data' : Context) :
    resolveText env data operationId template = resolveText env data' operationId template := by
  apply Regex.sub_congr
  intro m hm
  rcases Regex.exists_of_found_mem_pieces hm with ⟨before, s, atStart, htemplate, hmatch⟩
  rcases exists_of_matchAt_templatePattern hmatch with ⟨placeholder, rest, -, hclass, hs, hgroup⟩
  rw [hgroup, Option.getD_some]
  apply resolveTemplate_congr
  intro field hfield
  have hplaceholder := afterPrefix_eq_some hfield
  rw [String.toList_ofList] at hplaceholder
  by_contra hne
  have hfield_ne : field.toList ≠ [] := fun hnil => hne (String.toList_eq_nil_iff.mp hnil)
  have hfield_class : ∀ c ∈ field.toList, c ≠ '}' := by
    intro c hc
    exact hclass c (hplaceholder ▸ List.mem_append_right _ hc)
  have hplace : template.toList =
      before ++ ('$' :: '{' :: ("input.".toList ++ field.toList ++ '}' :: rest)) := by
    rw [htemplate, hs, hplaceholder]
  have hsearch := search_of_placeholder hfield_ne hfield_class hplace
  rw [h] at hsearch
  exact Bool.false_ne_true hsearch

end

/-! ## Raw queries -/

section
variable {env : EffectEnvironment}

theorem search_queryTemplate_eq_false {t : TextInterpreter} {c : ModelDbIOConfig}
    (hraw : c.operation = .raw) (haccepted : c.validate t = .ok ()) :
    inputPattern.search c.queryTemplate = false := by
  unfold ModelDbIOConfig.validate at haccepted
  rcases bind_eq_ok haccepted with ⟨_, -, haccepted⟩
  rcases bind_eq_ok haccepted with ⟨_, hinjection, -⟩
  unfold ModelDbIOConfig.validateSqlInjectionPrevention at hinjection
  split_ifs at hinjection with h
  rw [not_and, Bool.not_eq_true] at h
  exact h hraw

theorem resolve_queryTemplate {input : ModelEffectInput} {c : ModelDbIOConfig}
    {context : ModelResolvedDbContext}
    (h : resolveIoContext env input (.db c) = .ok (.db context)) :
    resolve env input c.queryTemplate = .ok context.query := by
  rcases map_eq_ok h with ⟨context', hresolve, hcontext⟩
  cases hcontext
  unfold resolveDb at hresolve
  rcases bind_eq_ok hresolve with ⟨query, hquery, hresolve⟩
  rcases bind_eq_ok hresolve with ⟨params, -, hresolve⟩
  rcases bind_eq_ok hresolve with ⟨_, -, hresolve⟩
  cases hresolve
  exact hquery

/-- No data of the caller reaches an accepted raw query: for all data the template is resolved to
the same text, or raises the same error, and resolved contexts have the same query. -/
theorem rawQuery_independent {c : ModelDbIOConfig} (hraw : c.operation = .raw)
    (haccepted : c.validate env.text = .ok ()) (input : ModelEffectInput)
    (data data' : Context) :
    (∀ context context',
      resolveIoContext env { input with operationData := data } (.db c) = .ok (.db context) →
      resolveIoContext env { input with operationData := data' } (.db c) = .ok (.db context') →
      context.query = context'.query) ∧
    resolve env { input with operationData := data } c.queryTemplate =
      resolve env { input with operationData := data' } c.queryTemplate := by
  have hsame : resolve env { input with operationData := data } c.queryTemplate =
      resolve env { input with operationData := data' } c.queryTemplate :=
    resolveText_congr env input.operationId (search_queryTemplate_eq_false hraw haccepted) data
      data'
  refine ⟨fun context context' h h' => ?_, hsame⟩
  rw [resolve_queryTemplate h, resolve_queryTemplate h'] at hsame
  exact Except.ok.inj hsame

end

def refreshProcedure : ModelDbIOConfig where
  operation := .raw
  connectionName := "main"
  queryTemplate := "CALL $\x7benv.PROCEDURE:refresh\x7d($1)"
  queryParams := ["$\x7binput.day\x7d"]

theorem rawQuery_independent_refreshProcedure :
    refreshProcedure.operation = .raw ∧ refreshProcedure.validate emptyEnvironment.text = .ok () ∧
      ∀ (input : ModelEffectInput) (data data' : Context),
        resolve emptyEnvironment { input with operationData := data }
            refreshProcedure.queryTemplate =
          resolve emptyEnvironment { input with operationData := data' }
            refreshProcedure.queryTemplate := by
  have haccepted : refreshProcedure.validate emptyEnvironment.text = .ok () := by decide +kernel
  exact ⟨rfl, haccepted, fun input data data' =>
    (rawQuery_independent rfl haccepted input data data').2⟩

end OmnibaseCore.Effect
