import Mathlib.Data.List.Induction
import TypedQuery.Proofs.Settings.Files
import TypedQuery.Proofs.Traversal
import TypedQuery.Settings.Load

/-!
# Layers of settings

Settings are loaded in layers, each of which determines one setting, both or none. Each setting
comes from the first layer that determines it, whatever becomes of the other one.

* `merge_eq`, `merge_append`: merged layers, setting by setting and list by list;
* `Layer.Tells`: what a layer determines, told by relations for the two settings;
* `Says`, `SaysEnforce`, `SaysLevel`: what an object says; `tells_ofMembers`;
* `EnvironmentEnforces`, `EnvironmentLevel`: what an environment says; `tells_environmentLayer`;
* `Consults`, `FileGives`: the file that is consulted, and its layer; `fileLayer_eq_ok_iff`;
* `load_layers`: where each setting of loaded settings comes from.
-/

namespace TypedQuery

/-- A layer determines the values that two relations tell, and no others. -/
structure Layer.Tells (layer : Layer) (enforce : Bool → Prop) (level : String → Prop) : Prop where
  enforce_iff : ∀ b, layer.enforceRequiredArguments = some b ↔ enforce b
  level_iff : ∀ name, layer.logLevel = some name ↔ level name

/-- Relations tell of one layer at most. -/
theorem Layer.Tells.eq {layer layer' : Layer} {enforce : Bool → Prop} {level : String → Prop}
    (h : layer.Tells enforce level) (h' : layer'.Tells enforce level) : layer = layer' := by
  obtain ⟨e, l⟩ := layer
  obtain ⟨e', l'⟩ := layer'
  obtain rfl : e = e' := Option.ext fun b => (h.enforce_iff b).trans (h'.enforce_iff b).symm
  obtain rfl : l = l' := Option.ext fun name => (h.level_iff name).trans (h'.level_iff name).symm
  rfl

namespace Settings

/-! ## Merging -/

/-- The layers that are merged first may be merged by themselves. -/
theorem merge_append (xs ys : List Layer) :
    merge (xs ++ ys) = merge ((merge xs).toLayer :: ys) :=
  calc merge (xs ++ ys)
    _ = ys.foldl overlay (merge xs) := List.foldl_append ..
    -- settings determine both of their values, so the defaults do not show through
    _ = ys.foldl overlay (default.overlay (merge xs).toLayer) := by rw [overlay_toLayer]
    _ = merge ((merge xs).toLayer :: ys) := rfl

/-- Each setting comes from the last layer that determines it. -/
theorem merge_eq (layers : List Layer) :
    merge layers =
      ⟨(layers.reverse.findSome? Layer.enforceRequiredArguments).getD
          default.enforceRequiredArguments,
        (layers.reverse.findSome? Layer.logLevel).getD default.logLevel⟩ := by
  induction layers using List.reverseRecOn with
  | nil => rfl
  | append_singleton layers layer ih =>
    have hlast : merge (layers ++ [layer]) = (merge layers).overlay layer := by
      rw [merge, List.foldl_append]
      rfl
    rw [hlast, ih, List.reverse_append, List.reverse_singleton, List.singleton_append,
      List.findSome?_cons, List.findSome?_cons, overlay]
    cases layer.enforceRequiredArguments <;> cases layer.logLevel <;> rfl

/-! ## Objects -/

/-- What an object says under a key, or under an alternative one if nothing but null is there. -/
inductive Says (members : Members Value) (key alternative : String) (v : Value) : Prop
  | preferred (h : members.get? key = some v) (hv : v.isNullish = false) :
      Says members key alternative v
  | alternative (hkey : ∀ w, members.get? key = some w → w.isNullish = true)
      (h : members.get? alternative = some v) : Says members key alternative v

theorem firstOf_of_value {members : Members Value} {key : String} {v : Value}
    (h : members.get? key = some v) (hv : v.isNullish = false) (alternative : String) :
    firstOf members key alternative = some v := by
  rw [firstOf, h]
  cases v with
  | undefined | null => cases hv
  | boolean | number | bigint | string | array | object | heir => rfl

theorem firstOf_of_nullish {members : Members Value} {key : String}
    (h : ∀ w, members.get? key = some w → w.isNullish = true) (alternative : String) :
    firstOf members key alternative = members.get? alternative := by
  unfold firstOf
  cases hkey : members.get? key with
  | none => rfl
  | some w =>
    have hw := h w hkey
    cases w with
    | undefined | null => rfl
    | boolean | number | bigint | string | array | object | heir => cases hw

theorem firstOf_eq_some_iff {members : Members Value} {key alternative : String} {v : Value} :
    firstOf members key alternative = some v ↔ Says members key alternative v := by
  constructor
  · intro h
    by_cases hkey : ∀ w, members.get? key = some w → w.isNullish = true
    · exact .alternative hkey (firstOf_of_nullish hkey alternative ▸ h)
    · simp only [not_forall, Bool.not_eq_true] at hkey
      obtain ⟨w, hget, hw⟩ := hkey
      obtain rfl := Option.some.inj ((firstOf_of_value hget hw alternative).symm.trans h)
      exact .preferred hget hw
  · rintro (⟨h, hv⟩ | ⟨hkey, h⟩)
    · exact firstOf_of_value h hv alternative
    · exact (firstOf_of_nullish hkey alternative).trans h

def SaysEnforce (members : Members Value) (b : Bool) : Prop :=
  Says members "enforceRequiredArguments" "enforce_required_arguments" (.boolean b)

def SaysLevel (members : Members Value) (name : String) : Prop :=
  name ∈ levelNames ∧ Says members "logLevel" "log_level" (.string name)

theorem isLevelName_iff {name : String} : isLevelName name = true ↔ name ∈ levelNames :=
  List.contains_iff_mem

theorem tells_ofMembers (members : Members Value) :
    (ofMembers members).Tells (SaysEnforce members) (SaysLevel members) where
  enforce_iff b := by
    rw [SaysEnforce, ← firstOf_eq_some_iff, ofMembers]
    dsimp only
    split
    · next b' h => simp [h]
    · next h => simpa using h b
  level_iff name := by
    rw [SaysLevel, ← firstOf_eq_some_iff, ← isLevelName_iff, ofMembers]
    dsimp only
    split
    · next name' h =>
      rw [h, Option.ite_none_right_eq_some, Option.some.injEq, Option.some.injEq,
        Value.string.injEq]
      exact and_congr_left fun hname => by rw [hname]
    · next h => simpa using fun _ => h name

/-! ## Environments -/

/-- The words that mean a truth value. -/
def truthWords : Bool → List String
  | true => ["true", "1", "yes"]
  | false => ["false", "0", "no"]

def EnvironmentEnforces (environment : Members String) (b : Bool) : Prop :=
  ∃ text, environment.get? "ARGCOERCE_ENFORCE_REQUIRED_ARGUMENTS" = some text ∧
    normalized text ∈ truthWords b

def EnvironmentLevel (environment : Members String) (name : String) : Prop :=
  name ∈ levelNames ∧
    ∃ text, environment.get? "ARGCOERCE_LOG_LEVEL" = some text ∧ normalized text = name

theorem truthOf?_eq_some_iff {text : String} {b : Bool} :
    truthOf? text = some b ↔ normalized text ∈ truthWords b := by
  have hapart : ∀ word ∈ truthWords true, word ∉ truthWords false := by decide
  have htruth : truthOf? text = if normalized text ∈ truthWords true then some true
      else if normalized text ∈ truthWords false then some false else none := by
    simp only [truthOf?, List.contains_iff_mem]
    rfl
  rw [htruth]
  split_ifs with htrue hfalse
  · cases b with
    | true => exact iff_of_true rfl htrue
    | false => exact iff_of_false nofun (hapart _ htrue)
  · cases b with
    | true => exact iff_of_false nofun htrue
    | false => exact iff_of_true rfl hfalse
  · cases b with
    | true => exact iff_of_false nofun htrue
    | false => exact iff_of_false nofun hfalse

theorem levelOf?_eq_some_iff {text name : String} :
    levelOf? text = some name ↔ name ∈ levelNames ∧ normalized text = name := by
  rw [levelOf?, Option.ite_none_right_eq_some, Option.some.injEq, isLevelName_iff]
  exact and_congr_left fun hname => by rw [hname]

theorem tells_environmentLayer (environment : Members String) :
    (environmentLayer environmentName environment).Tells (EnvironmentEnforces environment)
      (EnvironmentLevel environment) where
  enforce_iff b := by
    rw [EnvironmentEnforces, environmentLayer]
    exact Option.bind_eq_some_iff.trans
      (exists_congr fun text => and_congr_right fun _ => truthOf?_eq_some_iff)
  level_iff name := by
    rw [EnvironmentLevel, environmentLayer, ← exists_and_left]
    refine Option.bind_eq_some_iff.trans (exists_congr fun text => ?_)
    rw [levelOf?_eq_some_iff]
    exact and_left_comm

/-! ## Files -/

/-- The file that is consulted: the one that is named, or else the first of two that is there. -/
inductive Consults (system : FileSystem) (options : LoadOptions) : Option String → Prop
  | named {path : String} (h : options.file = some path) (hpath : path ≠ "") :
      Consults system options (some path)
  | first (hnamed : options.file.getD "" = "")
      (h : (system.find?
        (join (options.directoryIn system) "argcoerce.config.json")).isSome = true) :
      Consults system options (some (join (options.directoryIn system) "argcoerce.config.json"))
  | second (hnamed : options.file.getD "" = "")
      (hfirst : system.find? (join (options.directoryIn system) "argcoerce.config.json") = none)
      (h : (system.find? (join (options.directoryIn system) ".argcoercerc.json")).isSome = true) :
      Consults system options (some (join (options.directoryIn system) ".argcoercerc.json"))
  | nothing (hnamed : options.file.getD "" = "")
      (hfirst : system.find? (join (options.directoryIn system) "argcoerce.config.json") = none)
      (hsecond : system.find? (join (options.directoryIn system) ".argcoercerc.json") = none) :
      Consults system options none

/-- What a consulted file gives: it must hold a JSON object, and the layer is what that says. -/
inductive FileGives (system : FileSystem) : Option String → Layer → Prop
  | nothing : FileGives system none ⟨none, none⟩
  | object {path text : String} {ancestry : Ancestry} {mark : Option Nat}
      {members : Members Value} {layer : Layer} (hfile : system.find? path = some (.file text))
      (hextension : Text.lowerCase (extension path) = ".json")
      (hjson : Text.readJson text = some (.object ancestry mark members))
      (hlayer : layer.Tells (SaysEnforce members) (SaysLevel members)) :
      FileGives system (some path) layer

theorem consultedFile_of_unnamed {system : FileSystem} {options : LoadOptions}
    (h : options.file.getD "" = "") :
    consultedFile system options = consultedFile.usual system options := by
  unfold consultedFile
  cases hfile : options.file with
  | none => rfl
  | some path =>
    rw [hfile, Option.getD_some] at h
    rw [h]
    rfl

theorem consults_consultedFile (system : FileSystem) (options : LoadOptions) :
    Consults system options (consultedFile system options) := by
  by_cases hnamed : options.file.getD "" = ""
  · rw [consultedFile_of_unnamed hnamed, consultedFile.usual, fileNames, List.map_cons,
      List.map_cons, List.map_nil, List.find?_cons, List.find?_cons, List.find?_nil]
    cases hfirst : system.find? (join (options.directoryIn system) "argcoerce.config.json") with
    | some node => exact .first hnamed (by rw [hfirst]; rfl)
    | none =>
      cases hsecond : system.find? (join (options.directoryIn system) ".argcoercerc.json") with
      | some node => exact .second hnamed hfirst (by rw [hsecond]; rfl)
      | none => exact .nothing hnamed hfirst hsecond
  · cases hfile : options.file with
    | none => exact absurd (by rw [hfile]; rfl) hnamed
    | some path =>
      rw [hfile, Option.getD_some] at hnamed
      have hconsulted : consultedFile system options = some path := by
        simp [consultedFile, hfile, hnamed]
      exact hconsulted ▸ .named hfile hnamed

theorem consults_iff {system : FileSystem} {options : LoadOptions} {consulted : Option String} :
    Consults system options consulted ↔ consultedFile system options = consulted := by
  constructor
  · rintro (⟨h, hpath⟩ | ⟨hnamed, h⟩ | ⟨hnamed, hfirst, h⟩ | ⟨hnamed, hfirst, hsecond⟩)
    · simp [consultedFile, h, hpath]
    · rw [consultedFile_of_unnamed hnamed]
      simp [consultedFile.usual, fileNames, h]
    · rw [consultedFile_of_unnamed hnamed]
      simp [consultedFile.usual, fileNames, hfirst, h]
    · rw [consultedFile_of_unnamed hnamed]
      simp [consultedFile.usual, fileNames, hfirst, hsecond]
  · rintro rfl
    exact consults_consultedFile system options

theorem ofFile_eq_ok_iff {system : FileSystem} {path : String} {layer : Layer} :
    ofFile system path = .ok layer ↔ FileGives system (some path) layer := by
  constructor
  · intro h
    unfold ofFile at h
    split at h
    · cases h
    · next node hfile =>
      dsimp only at h
      split at h
      · cases h
      · next hextension =>
        cases node with
        | directory => cases h
        | file text =>
          dsimp only at h
          unfold ofJson at h
          split at h
          · next ancestry mark members hjson =>
            obtain rfl := Except.ok.inj h
            exact .object hfile (not_not.mp hextension) hjson (tells_ofMembers members)
          · cases h
          · cases h
  · intro h
    cases h with
    | object hfile hextension hjson hlayer =>
      rw [ofFile, hfile]
      simp only [hextension, ne_eq, not_true_eq_false, if_false]
      rw [ofJson, hjson]
      exact congrArg Except.ok ((tells_ofMembers _).eq hlayer)

theorem fileLayer_eq_ok_iff {system : FileSystem} {options : LoadOptions} {layer : Layer} :
    fileLayer system options = .ok layer ↔
      ∃ consulted, Consults system options consulted ∧ FileGives system consulted layer := by
  simp only [consults_iff, exists_eq_left']
  unfold fileLayer
  cases consultedFile system options with
  | some path => exact ofFile_eq_ok_iff
  | none =>
    constructor
    · intro h
      exact Except.ok.inj h ▸ .nothing
    · intro h
      cases h
      rfl

/-! ## Loading -/

theorem merge_environmentLayer (environment : Members String) :
    merge [environmentLayer environmentName environment] =
      ofEnvironment environmentName environment := rfl

/-- Loading merges the layers of the environment, of a file, and of the overrides. That it merges
two at a time makes no difference. -/
theorem load_eq_ok_iff {host : Host} {options : LoadOptions} {s : Settings} :
    load host options = .ok s ↔ ∃ layer, fileLayer host.system options = .ok layer ∧
      s = merge [environmentLayer environmentName
        (options.environment.getD host.environment), layer, options.overrides] := by
  refine bind_eq_ok_iff.trans (exists_congr fun layer => and_congr_right fun _ => ?_)
  have hmerge : merge [environmentLayer environmentName
        (options.environment.getD host.environment), layer, options.overrides] =
      merge [(merge [(ofEnvironment environmentName
        (options.environment.getD host.environment)).toLayer, layer]).toLayer,
          options.overrides] := by
    rw [← merge_environmentLayer, ← merge_append [_] [layer]]
    exact merge_append [_, layer] [options.overrides]
  rw [hmerge]
  exact ⟨fun h => (Except.ok.inj h).symm, fun h => congrArg Except.ok h.symm⟩

/-! ## Valid settings -/

/-- Nothing is wrong with settings whose level is one. -/
theorem complaints_toMembers {s : Settings} (h : s.logLevel ∈ levelNames) :
    complaints s.toMembers = [] := by
  have hlevel : isLevelName s.logLevel = true := isLevelName_iff.mpr h
  simp [complaints, toMembers, Members.get?, hlevel]

/-- Merging layers whose levels are levels makes settings whose level is one. -/
theorem logLevel_merge_mem {layers : List Layer}
    (h : ∀ layer ∈ layers, ∀ name, layer.logLevel = some name → name ∈ levelNames) :
    (merge layers).logLevel ∈ levelNames := by
  rw [merge_eq]
  dsimp only
  cases hfound : layers.reverse.findSome? Layer.logLevel with
  | none => exact (by decide : default.logLevel ∈ levelNames)
  | some name =>
    obtain ⟨layer, hlayer, hname⟩ := List.exists_of_findSome?_eq_some hfound
    exact h layer (List.mem_reverse.mp hlayer) name hname

theorem FileGives.level_mem {system : FileSystem} {consulted : Option String} {layer : Layer}
    (h : FileGives system consulted layer) {name : String} (hname : layer.logLevel = some name) :
    name ∈ levelNames := by
  cases h with
  | nothing => cases hname
  | object hfile hextension hjson hlayer => exact ((hlayer.level_iff name).mp hname).1

/-- **Each setting comes from its first layer.** Settings are loaded exactly if the consulted file,
if there is one, gives a layer. Either setting is then the first that is determined by the
overrides, by the file and by the environment, or else the default. If the overrides determine no
unknown level, nothing is wrong with the settings. To merge the first of some layers by themselves
makes no difference. -/
theorem load_layers (host : Host) (options : LoadOptions) (s : Settings) :
    (load host options = .ok s ↔ ∃ consulted fromFile fromEnvironment,
      Consults host.system options consulted ∧ FileGives host.system consulted fromFile ∧
      fromEnvironment.Tells
        (EnvironmentEnforces (options.environment.getD host.environment))
        (EnvironmentLevel (options.environment.getD host.environment)) ∧
      s.enforceRequiredArguments =
        ([options.overrides, fromFile, fromEnvironment].findSome?
          Layer.enforceRequiredArguments).getD default.enforceRequiredArguments ∧
      s.logLevel =
        ([options.overrides, fromFile, fromEnvironment].findSome? Layer.logLevel).getD
          default.logLevel) ∧
    (load host options = .ok s →
      (∀ name, options.overrides.logLevel = some name → name ∈ levelNames) →
        complaints s.toMembers = []) ∧
    ∀ xs ys : List Layer, merge (xs ++ ys) = merge ((merge xs).toLayer :: ys) := by
  have htells := tells_environmentLayer (options.environment.getD host.environment)
  refine ⟨⟨fun h => ?_, ?_⟩, fun h hoverrides => ?_, merge_append⟩
  · obtain ⟨layer, hlayer, rfl⟩ := load_eq_ok_iff.mp h
    obtain ⟨consulted, hconsults, hgives⟩ := fileLayer_eq_ok_iff.mp hlayer
    refine ⟨consulted, layer, _, hconsults, hgives, htells, ?_⟩
    rw [merge_eq]
    exact ⟨rfl, rfl⟩
  · rintro ⟨consulted, fromFile, fromEnvironment, hconsults, hgives, htells', henforce, hlevel⟩
    obtain rfl := htells'.eq htells
    refine load_eq_ok_iff.mpr
      ⟨fromFile, fileLayer_eq_ok_iff.mpr ⟨consulted, hconsults, hgives⟩, ?_⟩
    rw [merge_eq]
    obtain ⟨enforce, level⟩ := s
    exact congrArg₂ Settings.mk henforce hlevel
  · obtain ⟨layer, hlayer, rfl⟩ := load_eq_ok_iff.mp h
    obtain ⟨consulted, -, hgives⟩ := fileLayer_eq_ok_iff.mp hlayer
    refine complaints_toMembers (logLevel_merge_mem ?_)
    simp only [List.forall_mem_cons, List.not_mem_nil, false_imp_iff, implies_true, and_true]
    exact ⟨fun name hname => ((htells.level_iff name).mp hname).1,
      fun name hname => hgives.level_mem hname, hoverrides⟩

/-- A file of the second name, which enforces by a snake-case key and names no known level. -/
def enforcingText : String :=
  "\x7b\"enforceRequiredArguments\": null, \"enforce_required_arguments\": true, " ++
    "\"log_level\": \"loud\"\x7d"

def enforcingMembers : Members Value :=
  [("enforceRequiredArguments", .null), ("enforce_required_arguments", .boolean true),
    ("log_level", .string "loud")]

/-- The file, and a host that works elsewhere, in whose environment nothing is enforced. -/
def deployed : Host where
  system := ⟨[(["etc", "app", ".argcoercerc.json"], enforcingText)], [], ["home", "app"]⟩
  environment :=
    [("ARGCOERCE_ENFORCE_REQUIRED_ARGUMENTS", "no"), ("ARGCOERCE_LOG_LEVEL", " Debug ")]

/-- A call that names the directory of the file, and no file. -/
def calling (overrides : Layer) : LoadOptions where
  file := some ""
  directory := some "/etc/app"
  environment := none
  overrides := overrides

/-- The paths of the usual files, in the directory that the call names. -/
theorem join_calling (overrides : Layer) (name : String) (h : name ∈ fileNames) :
    join ((calling overrides).directoryIn deployed.system) name =
      pathTo (["etc", "app"] ++ [name]) := by
  have hname : IsFileName name := by
    rcases List.mem_pair.mp h with rfl | rfl
    · exact ⟨by decide, by decide, by decide, by decide⟩
    · exact ⟨by decide, by decide, by decide, by decide⟩
  have hdirectory : ∀ n ∈ ["etc", "app"], IsFileName n := by
    simp only [List.forall_mem_cons]
    exact ⟨⟨by decide, by decide, by decide, by decide⟩,
      ⟨by decide, by decide, by decide, by decide⟩, nofun⟩
  exact join_pathTo hdirectory hname

theorem consults_deployed (overrides : Layer) :
    Consults deployed.system (calling overrides) (some "/etc/app/.argcoercerc.json") := by
  have hfirst := join_calling overrides "argcoerce.config.json" (by decide)
  have hsecond := join_calling overrides ".argcoercerc.json" (by decide)
  change Consults deployed.system _ (some (pathTo (["etc", "app"] ++ [".argcoercerc.json"])))
  rw [← hsecond]
  refine .second rfl ?_ ?_
  · rw [hfirst]
    rfl
  · rw [hsecond]
    rfl

/-- The file settles one setting over the environment, which settles the other; overrides settle
both. -/
theorem load_layers_deployed :
    load deployed (calling ⟨none, none⟩) = .ok ⟨true, "debug"⟩ ∧
      complaints (toMembers ⟨true, "debug"⟩) = [] ∧
      load deployed (calling ⟨some false, some "error"⟩) = .ok ⟨false, "error"⟩ := by
  obtain ⟨hload, hvalid, -⟩ := load_layers deployed (calling ⟨none, none⟩) ⟨true, "debug"⟩
  obtain ⟨hload', -, -⟩ :=
    load_layers deployed (calling ⟨some false, some "error"⟩) ⟨false, "error"⟩
  have hgives : FileGives deployed.system (some "/etc/app/.argcoercerc.json")
      (ofMembers enforcingMembers) :=
    .object rfl (by decide) rfl (tells_ofMembers _)
  have hok := hload.mpr
    ⟨_, _, _, consults_deployed _, hgives, tells_environmentLayer _, rfl, by decide⟩
  exact ⟨hok, hvalid hok nofun,
    hload'.mpr ⟨_, _, _, consults_deployed _, hgives, tells_environmentLayer _, rfl, rfl⟩⟩

end Settings

end TypedQuery
