import Mathlib.Data.List.SplitOn
import Connectanum.Native.Frame
import Connectanum.Lib.Text
import Connectanum.Lib.Utf8

/-!
# Mqtt — TopicFilters

Topic filters: what the broker accepts of them, and which topics they match.

* `validFilter_iff`: the accepted filters are the well-formed ones;
* `topicMatches_iff`: an accepted filter matches as the rules of MQTT say.
-/

namespace Connectanum

namespace Mqtt

/-- A level of a topic or of a filter. -/
abbrev Level := List Char

/-- `text.split('/')`. -/
def levels (text : String) : List Level := text.toList.splitOn '/'

/-- What `_Reader.string` gives: the length has two bytes, and NUL is refused. -/
structure MqttString where
  text : String
  noNul : '\x00' ∉ text.toList
  short : (Utf8.encode text).length ≤ 65535

/-! ### The broker's filters -/

/-- The loop of `_validFilter`. -/
def validLevels : List Level → Bool
  | [] => true
  | level :: rest =>
      if level.contains '#' && (level != ['#'] || !rest.isEmpty) then false
      else if level.contains '+' && level != ['+'] then false
      else validLevels rest

def validFilter (filter : String) : Bool :=
  if filter.isEmpty then false else validLevels (levels filter)

/-- The loop of `_matches`, and the comparison of the lengths behind it. -/
def matchesLevels : (f t : List Level) → Bool
  | [], t => t.isEmpty
  | level :: rest, t =>
      if level == ['#'] then rest.isEmpty
      else
        match t with
        | [] => false
        | name :: names =>
            if level != ['+'] && level != name then false else matchesLevels rest names

/-- `_matches`. -/
def topicMatches (filter topic : String) : Bool :=
  if Text.startsWith topic "$" && !Text.startsWith filter "$" then false
  else matchesLevels (levels filter) (levels topic)

/-! ### The rules of MQTT -/

/-- A level that stands for one level: a name without wildcards, or `+`. -/
def Single (level : Level) : Prop := level = ['+'] ∨ ('+' ∉ level ∧ '#' ∉ level)

/-- The levels of a filter: `#` may be the last one. -/
inductive FilterLevels : List Level → Prop where
  | multi : FilterLevels [['#']]
  | last {level : Level} (h : Single level) : FilterLevels [level]
  | cons {level : Level} {rest : List Level} (h : Single level) (t : FilterLevels rest) :
      FilterLevels (level :: rest)

/-- A topic filter as MQTT has them. -/
structure WellFormed (filter : String) : Prop where
  nonempty : filter.toList ≠ []
  noNul : '\x00' ∉ filter.toList
  short : (Utf8.encode filter).length ≤ 65535
  levels : FilterLevels (levels filter)

/-- Level by level; `+` is exactly one level, a final `#` any number of levels. -/
inductive LevelsMatch : (filter topic : List Level) → Prop where
  | done : LevelsMatch [] []
  | multi (names : List Level) : LevelsMatch [['#']] names
  | single {rest names : List Level} (name : Level) (t : LevelsMatch rest names) :
      LevelsMatch (['+'] :: rest) (name :: names)
  | same {rest names : List Level} (name : Level) (t : LevelsMatch rest names) :
      LevelsMatch (name :: rest) (name :: names)

/-- A topic that starts with `$` is not matched by a filter that starts with a wildcard. -/
structure FilterMatches (filter topic : String) : Prop where
  levels : LevelsMatch (levels filter) (levels topic)
  hidden : topic.toList.head? = some '$' →
    filter.toList.head? ≠ some '+' ∧ filter.toList.head? ≠ some '#'

/-! ### The accepted filters -/

theorem levels_ne_nil (text : String) : levels text ≠ [] := List.splitOn_ne_nil _ _

theorem not_single_multi : ¬Single ['#'] := by
  rintro (h | ⟨-, h⟩)
  · cases h
  · exact h (List.mem_singleton_self _)

theorem single_iff {level : Level} (hmulti : '#' ∉ level) :
    ¬(level.contains '+' && level != ['+']) = true ↔ Single level := by
  by_cases hplus : '+' ∈ level
  · by_cases hlevel : level = ['+']
    · simp [Single, hlevel]
    · simp [Single, hlevel, hplus]
  · simp [Single, hplus, hmulti]

theorem validLevels_iff {fs : List Level} (hne : fs ≠ []) :
    validLevels fs = true ↔ FilterLevels fs := by
  induction fs with
  | nil => exact absurd rfl hne
  | cons level rest ih =>
      rw [validLevels]
      by_cases hmulti : '#' ∈ level
      · -- only as the last level, and alone
        by_cases hlast : level = ['#'] ∧ rest = []
        · obtain ⟨rfl, rfl⟩ := hlast
          exact ⟨fun _ => .multi, fun _ => by decide⟩
        · have hrefused : (level.contains '#' && (level != ['#'] || !rest.isEmpty)) = true := by
            simpa [hmulti, imp_iff_not_or] using hlast
          rw [if_pos hrefused]
          refine ⟨fun h => (nomatch h), fun h => ?_⟩
          cases h with
          | multi => exact absurd ⟨rfl, rfl⟩ hlast
          | last h =>
              rcases h with rfl | h
              · simp at hmulti
              · exact absurd hmulti h.2
          | cons h =>
              rcases h with rfl | h
              · simp at hmulti
              · exact absurd hmulti h.2
      · rw [if_neg (by simp [hmulti])]
        by_cases hsingle : Single level
        · rw [if_neg ((single_iff hmulti).mpr hsingle)]
          cases rest with
          | nil => exact ⟨fun _ => .last hsingle, fun _ => rfl⟩
          | cons next rest =>
              rw [ih (List.cons_ne_nil _ _)]
              constructor
              · intro h
                exact .cons hsingle h
              · intro h
                cases h with
                | cons _ t => exact t
        · rw [if_pos (not_not.mp fun h => hsingle ((single_iff hmulti).mp h))]
          refine ⟨fun h => (nomatch h), fun h => ?_⟩
          cases h with
          | multi => exact absurd (List.mem_singleton_self _) hmulti
          | last h => exact absurd h hsingle
          | cons h => exact absurd h hsingle

/-- **The accepted filters** are the well-formed ones, among all that a packet can carry. -/
theorem validFilter_iff (filter : MqttString) :
    validFilter filter.text = true ↔ WellFormed filter.text := by
  have hvalid := validLevels_iff (levels_ne_nil filter.text)
  rw [validFilter]
  by_cases hempty : filter.text.isEmpty = true
  · rw [if_pos hempty]
    refine ⟨fun h => (nomatch h), fun h => absurd ?_ h.nonempty⟩
    rw [String.isEmpty_iff.mp hempty]
    rfl
  · rw [if_neg hempty, hvalid]
    refine ⟨fun h => ⟨fun hnil => hempty ?_, filter.noNul, filter.short, h⟩, fun h => h.levels⟩
    rw [String.isEmpty_iff]
    exact String.toList_eq_nil_iff.mp hnil

/-! ### Matching -/

/-- The loop matches level by level. -/
theorem matchesLevels_iff {fs : List Level} (hvalid : fs = [] ∨ FilterLevels fs)
    (ts : List Level) : matchesLevels fs ts = true ↔ LevelsMatch fs ts := by
  induction fs generalizing ts with
  | nil =>
      rw [matchesLevels, List.isEmpty_iff]
      constructor
      · rintro rfl
        exact .done
      · rintro ⟨⟩
        rfl
  | cons level rest ih =>
      rw [matchesLevels.eq_def]
      dsimp only
      by_cases hmulti : level = ['#']
      · -- a filter that was accepted ends here
        subst hmulti
        have hrest : rest = [] := by
          rcases hvalid with h | h
          · cases h
          · cases h with
            | multi => rfl
            | last => rfl
            | cons h => exact absurd h not_single_multi
        subst hrest
        exact ⟨fun _ => .multi ts, fun _ => rfl⟩
      · rw [if_neg (by simpa using hmulti)]
        have hrest : rest = [] ∨ FilterLevels rest := by
          rcases hvalid with h | h
          · cases h
          · cases h with
            | multi => exact absurd rfl hmulti
            | last => exact .inl rfl
            | cons _ t => exact .inr t
        cases ts with
        | nil =>
            refine ⟨fun h => (nomatch h), fun h => ?_⟩
            cases h
            exact absurd rfl hmulti
        | cons name names =>
            dsimp only
            by_cases hname : level = ['+'] ∨ level = name
            · rw [if_neg (by simpa [imp_iff_not_or, or_comm] using hname), ih hrest]
              constructor
              · intro h
                rcases hname with rfl | rfl
                · exact .single name h
                · exact .same level h
              · intro h
                cases h with
                | multi => exact absurd rfl hmulti
                | single _ t => exact t
                | same _ t => exact t
            · rw [not_or] at hname
              rw [if_pos (by simpa using hname)]
              refine ⟨fun h => (nomatch h), fun h => ?_⟩
              cases h with
              | multi => exact absurd rfl hmulti
              | single => exact absurd rfl hname.1
              | same => exact absurd rfl hname.2

/-- The first character of the first level is that of the text. -/
theorem head_of_levels {text : String} {c : Char} {level : Level} {rest : List Level}
    (h : levels text = (c :: level) :: rest) : text.toList.head? = some c := by
  rw [levels] at h
  cases htext : text.toList with
  | nil =>
      rw [htext] at h
      cases (List.cons.inj h).1
  | cons x tail =>
      rw [htext, List.splitOn_cons_eq_if_modifyHead] at h
      split at h
      · cases (List.cons.inj h).1
      · obtain ⟨first, others, htail⟩ :=
          List.exists_cons_of_ne_nil (List.splitOn_ne_nil '/' tail)
        rw [htail, List.modifyHead_cons] at h
        obtain ⟨rfl, -⟩ := List.cons.inj (List.cons.inj h).1
        rfl

theorem levels_of_head {text : String} {c : Char} (hc : c ≠ '/') (h : text.toList.head? = some c) :
    ∃ level rest, levels text = (c :: level) :: rest := by
  obtain ⟨tail, htext⟩ := List.head?_eq_some_iff.mp h
  obtain ⟨level, rest, hlevels⟩ := List.exists_cons_of_ne_nil (List.splitOn_ne_nil '/' tail)
  refine ⟨level, rest, ?_⟩
  rw [levels, htext, List.splitOn_cons_eq_if_modifyHead, if_neg (by simpa using hc), hlevels]
  rfl

theorem startsWith_dollar_iff (text : String) :
    Text.startsWith text "$" = true ↔ text.toList.head? = some '$' := by
  rw [Text.startsWith]
  change ['$'].isPrefixOf text.toList = true ↔ _
  cases text.toList with
  | nil => simp
  | cons x tail =>
      simp only [List.isPrefixOf, Bool.and_true, beq_iff_eq, List.head?_cons, Option.some.injEq]
      exact eq_comm

/-- A filter that is matched by the rules starts as the topic does, or with a wildcard. -/
theorem LevelsMatch.head {fs : List Level} {c : Char} {level : Level} {names : List Level}
    (h : LevelsMatch fs ((c :: level) :: names)) :
    ∃ x tail rest, fs = (x :: tail) :: rest ∧ (x = c ∨ x = '+' ∨ x = '#') := by
  cases h with
  | multi => exact ⟨'#', [], [], rfl, .inr (.inr rfl)⟩
  | single => exact ⟨'+', [], _, rfl, .inr (.inl rfl)⟩
  | same => exact ⟨c, level, _, rfl, .inl rfl⟩

/-- **An accepted filter** matches as the rules of MQTT say. -/
theorem topicMatches_iff {filter : String} (hvalid : validFilter filter = true) (topic : String) :
    topicMatches filter topic = true ↔ FilterMatches filter topic := by
  have hlevels : FilterLevels (levels filter) := by
    rw [validFilter] at hvalid
    split at hvalid
    · cases hvalid
    · exact (validLevels_iff (levels_ne_nil filter)).mp hvalid
  rw [topicMatches]
  by_cases hdollar : topic.toList.head? = some '$'
  · rw [(startsWith_dollar_iff topic).mpr hdollar, Bool.true_and]
    by_cases hfilter : filter.toList.head? = some '$'
    · rw [(startsWith_dollar_iff filter).mpr hfilter, if_neg (by decide),
        matchesLevels_iff (.inr hlevels)]
      refine ⟨fun h => ⟨h, fun _ => ?_⟩, fun h => h.levels⟩
      rw [hfilter]
      exact ⟨by decide, by decide⟩
    · have hnot : Text.startsWith filter "$" = false :=
        Bool.eq_false_iff.mpr fun h => hfilter ((startsWith_dollar_iff filter).mp h)
      rw [hnot, if_pos (by decide)]
      refine ⟨fun h => (nomatch h), fun h => ?_⟩
      -- without a wildcard at its start the filter names another first level
      obtain ⟨level, names, htopic⟩ := levels_of_head (by decide) hdollar
      obtain ⟨x, tail, rest, hfs, hx⟩ := (htopic ▸ h.levels).head
      have hhead := head_of_levels hfs
      obtain ⟨hplus, hmulti⟩ := h.hidden hdollar
      rcases hx with rfl | rfl | rfl
      · exact absurd hhead hfilter
      · exact absurd hhead hplus
      · exact absurd hhead hmulti
  · have hnot : Text.startsWith topic "$" = false :=
      Bool.eq_false_iff.mpr fun h => hdollar ((startsWith_dollar_iff topic).mp h)
    rw [hnot, Bool.false_and, if_neg (by decide), matchesLevels_iff (.inr hlevels)]
    exact ⟨fun h => ⟨h, fun hd => absurd hd hdollar⟩, fun h => h.levels⟩

example : topicMatches "sport/#" "sport" = true ∧ topicMatches "#" "$SYS/uptime" = false ∧
    topicMatches "+/+" "/finance" = true ∧ topicMatches "+" "/finance" = false := by decide +kernel

end Mqtt

end Connectanum
