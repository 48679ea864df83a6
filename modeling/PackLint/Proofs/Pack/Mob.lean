import PackLint.Pack.Mob

/-!
# The types of mobs, step by step

`checkMobType` reads the type of a mob, and then reports a type that overrides an entity and display
options that do not fit the type. `checkMobType_map` takes the three apart.
-/

namespace PackLint.Pack

/-- The name of the type that a pair tells. -/
def typeName? (type : Option Pair) : Except Fault String :=
  match type.bind (·.value) with
  | some (.scalar s) => s.plainText?
  | _ => .ok "unknown"

/-- The report on a type of a mob whose id is `id`. -/
def overrideReport (site : Site) (id : String) (type : Option Pair) : Report :=
  match type with
  | some t =>
    if (site.data.entities.map lowerText).contains (lowerText id) then
      site.problem t.key .vanillaOverrideType
        ("Type is not required for vanilla override of " ++ id ++ ".")
    else .empty
  | none => .empty

/-- The report on the display options of a mob whose type is `typeName`. -/
def displayReport (site : Site) (typeName : String) (options : Option Pair) : Report :=
  if displayTypes.contains (lowerText typeName) then .empty
  else
    match options with
    | some options =>
      site.problem options.key .invalidDisplayOptions
        ("DisplayOptions is only available for " ++ ", ".intercalate displayTypes ++ ". Got " ++
          typeName ++ ".")
    | none => .empty

theorem append_displayReport (site : Site) (typeName : String) (options : Option Pair)
    (override : Report) :
    (if displayTypes.contains (lowerText typeName) then pure override
    else
      match options with
      | some options =>
        pure (override ++ site.problem options.key .invalidDisplayOptions
          ("DisplayOptions is only available for " ++ ", ".intercalate displayTypes ++ ". Got " ++
            typeName ++ "."))
      | none => pure override) =
      (.ok (override ++ displayReport site typeName options) : Except Fault Report) := by
  unfold displayReport
  split
  · exact congrArg Except.ok (Report.merge_empty _).symm
  · cases options with
    | none => exact congrArg Except.ok (Report.merge_empty _).symm
    | some options => rfl

/-- A mob is reported on once the name of its type can be written. -/
theorem checkMobType_map (site : Site) {p : Pair} {mob : Node} (hv : p.value = some mob)
    (hm : mob.isMap) :
    checkMobType site p = (typeName? (mob.pair? "Type")).map fun typeName =>
      overrideReport site p.keyText (mob.pair? "Type") ++
        displayReport site typeName (mob.pair? "DisplayOptions") := by
  cases mob with
  | map pairs start stop =>
    have hbind : checkMobType site p =
        typeName? ((Node.map pairs start stop).pair? "Type") >>= fun typeName =>
          .ok (overrideReport site p.keyText ((Node.map pairs start stop).pair? "Type") ++
            displayReport site typeName ((Node.map pairs start stop).pair? "DisplayOptions")) := by
      have hreports : ∀ typeName, _ = _ := fun typeName =>
        append_displayReport site typeName ((Node.map pairs start stop).pair? "DisplayOptions")
          (overrideReport site p.keyText ((Node.map pairs start stop).pair? "Type"))
      unfold checkMobType typeName?
      rw [hv, ← funext hreports]
      simp only
      generalize hvalue : ((Node.map pairs start stop).pair? "Type").bind (·.value) = value
      rcases value with - | s | - | - <;> rfl
    rw [hbind]
    cases typeName? ((Node.map pairs start stop).pair? "Type") <;> rfl
  | _ => cases hm

theorem checkMobType_of_not_map (site : Site) {p : Pair}
    (h : ∀ mob, p.value = some mob → mob.isMap = false) : checkMobType site p = .ok .empty := by
  unfold checkMobType
  split
  · rename_i hv
    cases h _ hv
  · rfl

end PackLint.Pack
