import Mathlib.Data.List.Basic
import TypedQuery.Settings.Files

/-!
# Paths lead to files

An absolute path leads to the same place from everywhere, and a path that is joined to an absolute
one is absolute.

* `IsFileName`: names that are one part of a path, and no way up;
* `isAbsolute_join`, `join_pathTo`: a name below an absolute directory;
* `follow_of_directories`: names are followed through directories;
* `find?_pathTo`: a file is found at its absolute path.
-/

namespace TypedQuery

/-- A name that a directory can hold. -/
structure IsFileName (name : String) : Prop where
  ne_empty : name ≠ ""
  ne_dot : name ≠ "."
  ne_dots : name ≠ ".."
  noSlash : '/' ∉ name.toList

/-! ## Parts -/

theorem pathParts_append (path rest : String) :
    pathParts (path ++ "/" ++ rest) = pathParts path ++ pathParts rest := by
  have htext : (path ++ "/" ++ rest).toList = path.toList ++ '/' :: rest.toList := by simp
  have hsplit := List.splitOnP_append_cons (p := (· == '/')) path.toList rest.toList
    (beq_self_eq_true '/')
  rw [pathParts, htext, List.splitOn, hsplit, List.map_append]
  rfl

theorem IsFileName.pathParts {name : String} (h : IsFileName name) : pathParts name = [name] := by
  have hslash : ∀ text ∈ [name.toList], '/' ∉ text := by simpa using h.noSlash
  have hsplit : name.toList.splitOn '/' = [name.toList] := by
    simpa using List.splitOn_intercalate '/' hslash (List.cons_ne_nil _ _)
  rw [TypedQuery.pathParts, hsplit, List.map_singleton, String.ofList_toList]

theorem pathParts_intercalate {names : List String} (h : ∀ name ∈ names, IsFileName name)
    (hne : names ≠ []) : pathParts ("/".intercalate names) = names := by
  have hslash : ∀ text ∈ names.map String.toList, '/' ∉ text := by
    rw [List.forall_mem_map]
    exact fun name hname => (h name hname).noSlash
  have hsplit := List.splitOn_intercalate '/' hslash (mt List.map_eq_nil_iff.mp hne)
  rw [pathParts, String.toList_intercalate]
  change (List.splitOn '/' (['/'].intercalate (names.map String.toList))).map String.ofList = names
  rw [hsplit, List.map_map]
  exact (List.map_congr_left fun name _ => String.ofList_toList).trans (List.map_id names)

/-- The parts of an absolute path say its names, and nothing before them. -/
theorem pathParts_pathTo {names : List String} (h : ∀ name ∈ names, IsFileName name) :
    pathParts (pathTo names) = "" :: if names = [] then [""] else names := by
  have hroot : pathTo names = "" ++ "/" ++ "/".intercalate names := by simp [pathTo]
  rw [hroot, pathParts_append]
  split
  · next hnil =>
    subst hnil
    rfl
  · next hne =>
    rw [pathParts_intercalate h hne]
    rfl

/-! ## Joining -/

theorem IsFileName.goAlong {name : String} (h : IsFileName name) (absolute : Bool)
    (done : List String) : goAlong absolute done name = done ++ [name] := by
  simp [TypedQuery.goAlong, h.ne_empty, h.ne_dot, h.ne_dots]

/-- Names only lead further down. -/
theorem foldl_goAlong {names : List String} (h : ∀ name ∈ names, IsFileName name)
    (absolute : Bool) (done : List String) :
    names.foldl (goAlong absolute) done = done ++ names := by
  induction names generalizing done with
  | nil => simp
  | cons name names ih =>
    rw [List.foldl_cons, (h name (List.mem_cons_self ..)).goAlong,
      ih (fun n hn => h n (List.mem_cons_of_mem _ hn)), List.append_assoc, List.singleton_append]

theorem foldl_goAlong_pathTo {names : List String} (h : ∀ name ∈ names, IsFileName name) :
    (pathParts (pathTo names)).foldl (goAlong true) [] = names := by
  rw [pathParts_pathTo h]
  split
  · next hnil =>
    subst hnil
    rfl
  · exact foldl_goAlong h true []

theorem isAbsolute_slash_append (rest : String) : isAbsolute ("/" ++ rest) = true := by
  simp [isAbsolute]

theorem isAbsolute_pathTo (names : List String) : isAbsolute (pathTo names) = true :=
  isAbsolute_slash_append _

theorem isAbsolute_append {path : String} (h : isAbsolute path = true) (rest : String) :
    isAbsolute (path ++ rest) = true := by
  have hhead : path.toList.head? = some '/' := of_decide_eq_true h
  simp [isAbsolute, List.head?_append, hhead]

theorem isAbsolute_normalizePath {path : String} (h : isAbsolute path = true) :
    isAbsolute (normalizePath path) = true := by
  unfold normalizePath
  dsimp only
  rw [h, if_pos rfl, if_pos rfl]
  split
  · decide
  · exact isAbsolute_append (isAbsolute_pathTo _) _

theorem join_of_ne_empty {directory name : String} (hdirectory : directory ≠ "")
    (hname : name ≠ "") : join directory name = normalizePath (directory ++ "/" ++ name) := by
  simp [join, hdirectory, hname]

/-- What is joined to an absolute path is absolute. -/
theorem isAbsolute_join {directory : String} (h : isAbsolute directory = true) (name : String) :
    isAbsolute (join directory name) = true := by
  have hdirectory : directory ≠ "" := by
    rintro rfl
    cases h
  by_cases hname : name = ""
  · subst hname
    have hjoin : join directory "" = normalizePath directory := by simp [join, hdirectory]
    rw [hjoin]
    exact isAbsolute_normalizePath h
  · rw [join_of_ne_empty hdirectory hname]
    exact isAbsolute_normalizePath (isAbsolute_append (isAbsolute_append h _) _)

theorem IsFileName.getLast?_append {name : String} (h : IsFileName name) (path : String) :
    (path ++ name).toList.getLast? ≠ some '/' := by
  intro hlast
  rw [String.toList_append, List.getLast?_append_of_ne_nil _ (by simpa using h.ne_empty)] at hlast
  exact h.noSlash (List.mem_of_getLast? hlast)

/-- A name below an absolute directory is looked for in that directory. -/
theorem join_pathTo {names : List String} (h : ∀ name ∈ names, IsFileName name) {name : String}
    (hname : IsFileName name) : join (pathTo names) name = pathTo (names ++ [name]) := by
  have hdirectory : pathTo names ≠ "" := by simp [pathTo]
  have hparts : (pathParts (pathTo names ++ "/" ++ name)).foldl (goAlong true) [] =
      names ++ [name] := by
    rw [pathParts_append, List.foldl_append, foldl_goAlong_pathTo h, hname.pathParts,
      List.foldl_cons, hname.goAlong, List.foldl_nil]
  have habsolute : isAbsolute (pathTo names ++ "/" ++ name) = true :=
    isAbsolute_append (isAbsolute_append (isAbsolute_pathTo _) _) _
  have hend := hname.getLast?_append (pathTo names ++ "/")
  rw [join_of_ne_empty hdirectory hname.ne_empty, normalizePath]
  have hne : names ++ [name] ≠ [] := List.append_ne_nil_of_right_ne_nil _ (List.cons_ne_nil _ _)
  simp only [habsolute, hparts, if_neg hend, if_neg hne, if_true, String.append_empty]

/-! ## Finding -/

namespace FileSystem

theorem enter_of_isFileName {name : String} (h : IsFileName name) (here : List String) :
    enter here name = here ++ [name] := by
  simp [enter, h.ne_empty, h.ne_dot, h.ne_dots]

/-- Names are followed through directories, one by one. -/
theorem follow_of_directories {system : FileSystem} {names : List String}
    (h : ∀ name ∈ names, IsFileName name) {here : List String}
    (hdirectories : ∀ above, above <+: names → above ≠ names →
      system.nodeAt? (here ++ above) = some .directory) :
    system.follow here names = some (here ++ names) := by
  induction names generalizing here with
  | nil => rw [follow, List.append_nil]
  | cons name names ih =>
    have hhere : system.nodeAt? here = some .directory := by
      simpa using hdirectories [] (List.nil_prefix) (List.cons_ne_nil _ _).symm
    rw [follow, hhere]
    dsimp only
    rw [enter_of_isFileName (h name (List.mem_cons_self ..)),
      ih (fun n hn => h n (List.mem_cons_of_mem _ hn)) fun above habove hne => ?_,
      List.append_assoc, List.singleton_append]
    rw [List.append_assoc, List.singleton_append]
    exact hdirectories (name :: above) (List.cons_prefix_cons.mpr ⟨rfl, habove⟩)
      fun heq => hne (List.cons.inj heq).2

/-- A file is found at its absolute path, whatever the working directory. -/
theorem find?_pathTo {system : FileSystem} {names : List String} {text : String}
    (h : ∀ name ∈ names, IsFileName name) (hne : names ≠ [])
    (hfile : system.nodeAt? names = some (.file text))
    (hdirectories : ∀ above, above <+: names → above ≠ names →
      system.nodeAt? above = some .directory) :
    system.find? (pathTo names) = some (.file text) := by
  have hroot : system.nodeAt? [] = some .directory :=
    hdirectories [] List.nil_prefix hne.symm
  have hfollow : system.follow [] ("" :: names) = some names := by
    rw [follow, hroot]
    exact follow_of_directories h hdirectories
  have hpath : pathTo names ≠ "" := by simp [pathTo]
  have hparts : pathParts (pathTo names) = "" :: names := by rw [pathParts_pathTo h, if_neg hne]
  simp only [find?, if_neg hpath, isAbsolute_pathTo, if_true, hparts, hfollow]
  exact hfile

end FileSystem

end TypedQuery
