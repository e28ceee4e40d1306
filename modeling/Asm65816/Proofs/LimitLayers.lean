import Asm65816.Limits
import Asm65816.Proofs.WrittenIntegers

/-!
# Where the limits come from

A limit has three layers: an argument, a setting of the environment, and the default below them. The
highest layer that gives a value decides (`Limits.Layered`). An argument that is not accepted is
refused, while such a setting is passed over. Each of the two limits has its own layers, and nothing
in those of one changes the other.
-/

namespace Asm65816

open Text.Integer (Writes)

/-! ## Depths -/

namespace Depth

variable {d : Int} {x : Depth} {e : DepthError}

/-- The depths that a limit may have. -/
def InRange (d : Int) : Prop := 1 ≤ d ∧ d ≤ supportedDepth

instance (d : Int) : Decidable (InRange d) := inferInstanceAs (Decidable (_ ∧ _))

theorem inRange (x : Depth) : InRange x.levels := by
  have hone := x.one_le
  have hsupported := x.le_supported
  exact ⟨by omega, by omega⟩

theorem eq_of_levels {y : Depth} (h : (x.levels : Int) = y.levels) : x = y := by
  obtain ⟨levels, _, _⟩ := x
  obtain ⟨levels', _, _⟩ := y
  obtain rfl : levels = levels' := Int.ofNat_inj.1 h
  rfl

/-- An argument in range is the limit. -/
theorem make_eq_ok_iff : make d = .ok x ↔ (x.levels : Int) = d := by
  unfold make
  refine ⟨fun h => ?_, ?_⟩
  · split at h
    · cases h
    · split at h
      · cases h
      · cases h
        exact Int.toNat_of_nonneg (by omega)
  · rintro rfl
    obtain ⟨hlow, hhigh⟩ := x.inRange
    rw [dif_neg (by omega), dif_neg (by omega)]
    rfl

/-- An argument out of range is refused on its side of the range. -/
theorem make_eq_error_iff : make d = .error e ↔
    d < 1 ∧ e = .notPositive d ∨ supportedDepth < d ∧ e = .unsupported d := by
  have hbounds : ¬ (d < 1 ∧ (supportedDepth : Int) < d) := by omega
  unfold make
  split
  · next hlow =>
    rw [Except.error.injEq]
    refine ⟨fun h => .inl ⟨hlow, h.symm⟩, ?_⟩
    rintro (⟨-, h⟩ | ⟨hhigh, -⟩)
    · exact h.symm
    · exact absurd ⟨hlow, hhigh⟩ hbounds
  · next hlow =>
    split
    · next hhigh =>
      rw [Except.error.injEq]
      refine ⟨fun h => .inr ⟨hhigh, h.symm⟩, ?_⟩
      rintro (⟨h, -⟩ | ⟨-, h⟩)
      · exact absurd h hlow
      · exact h.symm
    · next hhigh =>
      refine ⟨nofun, ?_⟩
      rintro (⟨h, -⟩ | ⟨h, -⟩)
      · exact absurd h hlow
      · exact absurd h hhigh

end Depth

namespace Limits

variable {accepts : Int → Prop} {fallback n n' : Int} {setting : Option String}
  {argument : Option Int}

/-- The value that a limit takes: its argument, or else its setting, or else the default. A setting
counts where it is not empty and writes an integer that is accepted. -/
inductive Layered (accepts : Int → Prop) (fallback : Int) (setting : Option String) :
    Option Int → Int → Prop
  | argument {n : Int} : accepts n → Layered accepts fallback setting (some n) n
  | setting {s : String} {n : Int} : setting = some s → s ≠ "" → Writes s.toList n → accepts n →
      Layered accepts fallback setting none n
  | fallback : (∀ s n, setting = some s → s ≠ "" → Writes s.toList n → ¬ accepts n) →
      Layered accepts fallback setting none fallback

/-- The layers give one value at most. -/
theorem Layered.unique (h : Layered accepts fallback setting argument n)
    (k : Layered accepts fallback setting argument n') : n = n' := by
  cases h with
  | argument _ => cases k with | argument _ => rfl
  | setting hs hne hwrites haccepts =>
    cases k with
    | setting hs' _ hwrites' _ =>
      cases hs.symm.trans hs'
      exact hwrites.unique hwrites'
    | fallback hnone => exact absurd haccepts (hnone _ _ hs hne hwrites)
  | fallback hnone =>
    cases k with
    | setting hs hne hwrites haccepts => exact absurd haccepts (hnone _ _ hs hne hwrites)
    | fallback _ => rfl

theorem layered_of_read? {s : String} (h : Text.Integer.read? s = some n) (haccepts : accepts n) :
    Layered accepts fallback (some s) none n := by
  have hwrites := Text.Integer.read?_eq_some_iff.1 h
  refine .setting rfl ?_ hwrites haccepts
  rintro rfl
  exact Text.Integer.not_writes_nil hwrites

/-- What a setting does not give is the default. -/
theorem layered_of_refused
    (h : ∀ s n, setting = some s → Text.Integer.read? s = some n → ¬ accepts n) :
    Layered accepts fallback setting none fallback :=
  .fallback fun s n hs _ hwrites => h s n hs (Text.Integer.read?_eq_some_iff.2 hwrites)

theorem layered_of_unread (h : setting.bind Text.Integer.read? = none) :
    Layered accepts fallback setting none fallback := by
  refine layered_of_refused fun s n hs hn => ?_
  rw [hs, Option.bind_some, hn] at h
  cases h

theorem layered_depth (setting : Option String) :
    Layered Depth.InRange 64 setting none (Depth.ofSetting setting).levels := by
  cases hread : setting.bind Text.Integer.read? with
  | none =>
    rw [Depth.ofSetting, hread]
    exact layered_of_unread hread
  | some d =>
    obtain ⟨s, rfl, hs⟩ := Option.bind_eq_some_iff.1 hread
    rw [Depth.ofSetting, hread, Option.map_some]
    cases hmake : Depth.make d with
    | ok x =>
      obtain rfl := Depth.make_eq_ok_iff.1 hmake
      exact layered_of_read? hs x.inRange
    | error e =>
      refine layered_of_refused fun s' n hs' hn => ?_
      cases hs'
      cases hs.symm.trans hn
      rintro ⟨hlow, hhigh⟩
      rcases Depth.make_eq_error_iff.1 hmake with ⟨h, -⟩ | ⟨h, -⟩ <;> omega

theorem layered_errors (setting : Option String) :
    Layered (fun _ => True) 100 setting none (errorsOfSetting setting) := by
  rw [errorsOfSetting]
  cases hread : setting.bind Text.Integer.read? with
  | none => exact layered_of_unread hread
  | some n =>
    obtain ⟨s, rfl, hs⟩ := Option.bind_eq_some_iff.1 hread
    exact layered_of_read? hs trivial

/-- Each field has its own argument; only that of the depth can be refused. -/
theorem override_eq (limits : Limits) (depth errors : Option Int) :
    limits.override depth errors =
      (depth.elim (.ok limits.depth) Depth.make).map fun d => ⟨d, errors.getD limits.errors⟩ := by
  cases depth with
  | none => rfl
  | some d =>
    rw [override, Option.elim_some]
    cases Depth.make d with
    | ok x => rfl
    | error e => rfl

theorem layered_getD (setting : Option String) (errors : Option Int) :
    Layered (fun _ => True) 100 setting errors (errors.getD (errorsOfSetting setting)) := by
  cases errors with
  | none => exact layered_errors setting
  | some n => exact .argument trivial

theorem elim_make_eq_ok_iff {depth : Option Int} {x : Depth} :
    depth.elim (.ok (Depth.ofSetting setting)) Depth.make = .ok x ↔
      Layered Depth.InRange 64 setting depth x.levels := by
  cases depth with
  | none =>
    rw [Option.elim_none, Except.ok.injEq]
    refine ⟨?_, fun h => Depth.eq_of_levels ((layered_depth setting).unique h)⟩
    rintro rfl
    exact layered_depth setting
  | some d =>
    rw [Option.elim_some, Depth.make_eq_ok_iff]
    refine ⟨?_, fun h => ?_⟩
    · rintro rfl
      exact .argument x.inRange
    · cases h
      rfl

variable {settings : Settings} {depth errors : Option Int} {limits : Limits} {e : DepthError}

theorem override_eq_ok_iff : (ofSettings settings).override depth errors = .ok limits ↔
    Layered Depth.InRange 64 settings.maxDepth depth limits.depth.levels ∧
      Layered (fun _ => True) 100 settings.maxErrors errors limits.errors := by
  have herrors := layered_getD settings.maxErrors errors
  rw [override_eq, ← elim_make_eq_ok_iff]
  change ((depth.elim (.ok (Depth.ofSetting settings.maxDepth)) Depth.make).map fun d =>
    (⟨d, errors.getD (errorsOfSetting settings.maxErrors)⟩ : Limits)) = _ ↔ _
  cases depth.elim (.ok (Depth.ofSetting settings.maxDepth)) Depth.make with
  | error e => exact ⟨nofun, fun h => nomatch h.1⟩
  | ok x =>
    refine ⟨fun h => ?_, ?_⟩
    · cases h
      exact ⟨rfl, herrors⟩
    · rintro ⟨hdepth, hlayers⟩
      cases hdepth
      rw [Except.map, herrors.unique hlayers]

theorem override_eq_error_iff : (ofSettings settings).override depth errors = .error e ↔
    ∃ d, depth = some d ∧
      (d < 1 ∧ e = .notPositive d ∨ supportedDepth < d ∧ e = .unsupported d) := by
  rw [override_eq]
  cases depth with
  | none => exact ⟨nofun, nofun⟩
  | some d =>
    simp only [Option.elim_some, Option.some.injEq, exists_eq_left', ← Depth.make_eq_error_iff]
    cases Depth.make d with
    | ok x => exact ⟨nofun, nofun⟩
    | error e' => exact Iff.of_eq (by rw [Except.map, Except.error.injEq, Except.error.injEq])

/-- The limits of all layers. Reading the settings always gives limits; arguments over them are
refused exactly for a depth out of range. Otherwise each limit is what its own layers give, so the
layers of one never change the other, and no depth is out of range. -/
theorem limits_layered (settings : Settings) (depth errors : Option Int) :
    (ofSettings settings).override none none = .ok (ofSettings settings) ∧
    (∀ e, (ofSettings settings).override depth errors = .error e ↔ ∃ d, depth = some d ∧
      (d < 1 ∧ e = .notPositive d ∨ supportedDepth < d ∧ e = .unsupported d)) ∧
    (∀ limits, (ofSettings settings).override depth errors = .ok limits ↔
      Layered Depth.InRange 64 settings.maxDepth depth limits.depth.levels ∧
        Layered (fun _ => True) 100 settings.maxErrors errors limits.errors) ∧
    (∀ settings' errors', settings'.maxDepth = settings.maxDepth →
      ((ofSettings settings').override depth errors').map Limits.depth =
        ((ofSettings settings).override depth errors).map Limits.depth) ∧
    (∀ settings' depth' limits limits', settings'.maxErrors = settings.maxErrors →
      (ofSettings settings).override depth errors = .ok limits →
      (ofSettings settings').override depth' errors = .ok limits' →
      limits'.errors = limits.errors) ∧
    ∀ limits : Limits, 1 ≤ limits.depth.levels ∧ limits.depth.levels ≤ 80 := by
  refine ⟨rfl, fun e => override_eq_error_iff, fun limits => override_eq_ok_iff,
    fun settings' errors' hsetting => ?_, fun settings' depth' limits limits' hsetting h h' => ?_,
    fun limits => ⟨limits.depth.one_le, limits.depth.le_supported⟩⟩
  · rw [override_eq, override_eq]
    change ((depth.elim (.ok (Depth.ofSetting settings'.maxDepth)) Depth.make).map _).map _ =
      ((depth.elim (.ok (Depth.ofSetting settings.maxDepth)) Depth.make).map _).map _
    rw [hsetting]
    cases depth.elim (.ok (Depth.ofSetting settings.maxDepth)) Depth.make with
    | ok x => rfl
    | error e => rfl
  · have herrors := (override_eq_ok_iff.1 h).2
    have herrors' := (override_eq_ok_iff.1 h').2
    rw [hsetting] at herrors'
    exact herrors'.unique herrors

/-- A depth from the environment under an error limit that is given, which hides a setting that
writes no integer; and a depth that is given, but not supported. -/
theorem limits_layered_of_settings :
    let settings : Settings := ⟨some " +7_0\n", some "many"⟩
    let limits : Limits := ⟨⟨70, by decide, by decide⟩, -3⟩
    (ofSettings settings).override none (some (-3)) = .ok limits ∧
    (ofSettings settings).override (some 81) none = .error (.unsupported 81) ∧
    ((ofSettings ⟨some " +7_0\n", some "5"⟩).override none none).map Limits.depth =
      ((ofSettings settings).override none (some (-3))).map Limits.depth ∧
    ∀ limits', (ofSettings ⟨some "81", some "many"⟩).override (some 1) (some (-3)) = .ok limits' →
      limits'.errors = limits.errors := by
  intro settings limits
  obtain ⟨-, -, hok, hdepth, herrors, -⟩ := limits_layered settings none (some (-3))
  have hwrites : Writes " +7_0\n".toList 70 :=
    Text.Integer.read?_eq_some_iff.1 (by decide +kernel)
  have hlimits : (ofSettings settings).override none (some (-3)) = .ok limits :=
    (hok limits).2 ⟨.setting rfl (by decide) hwrites (by decide), .argument trivial⟩
  exact ⟨hlimits,
    ((limits_layered settings (some 81) none).2.1 _).2 ⟨81, rfl, .inr ⟨by decide, rfl⟩⟩,
    hdepth ⟨some " +7_0\n", some "5"⟩ none rfl,
    fun limits' => herrors ⟨some "81", some "many"⟩ (some 1) limits limits' rfl hlimits⟩

end Limits

end Asm65816
