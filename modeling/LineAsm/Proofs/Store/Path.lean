import LineAsm.Proofs.Text.Splitting
import LineAsm.Store.Path

/-!
# Paths with something behind them

Text without slashes that is put behind a path joins the last component of the path
(`Path.exists_components_append`), and text without dots joins the extension of that component
(`Path.nameExtension?_append`).

So the path of the artifact of a source is one that names an artifact
(`Path.isArtifact_artifactOf`), and the path with the suffix behind that of an artifact names
neither a source nor an artifact (`Path.artifactOf_artifact`).
-/

set_option autoImplicit false

namespace LineAsm.Path

/-! ## Components -/

/-- **Text without slashes behind a path** joins its last component, when the path does not
end with a slash. -/
theorem exists_components_append {path : String} (nonempty : path ≠ "")
    (noSlash : path.toList.getLast? ≠ some '/') :
    ∃ folders name, components path = folders ++ [name] ∧
      ∀ behind : String, '/' ∉ behind.toList →
        components (path ++ behind) = folders ++ [name ++ behind] := by
  obtain ⟨earlier, last, grows, ends⟩ := @Text.exists_last_field (· == '/') path.toList
  have lastSome : last ≠ [] := by
    intro empty
    have chars : path.toList ≠ [] := fun nil => nonempty (String.toList_eq_nil_iff.mp nil)
    obtain ⟨c, final⟩ := Option.isSome_iff_exists.mp (List.getLast?_isSome.mpr chars)
    obtain rfl := beq_iff_eq.mp (ends empty c final)
    exact noSlash final
  have cut (behind : String) (plain : '/' ∉ behind.toList) :
      components (path ++ behind) =
        ((earlier.filter fun part => !part.isEmpty).map String.ofList) ++
          [String.ofList last ++ behind] := by
    have fields := grows behind.toList fun c mem =>
      beq_eq_false_iff_ne.mpr fun same => plain (same ▸ mem)
    rw [components, String.toList_append, fields]
    simp [lastSome, String.ofList_append]
  refine ⟨_, String.ofList last, ?_, cut⟩
  have alone := cut "" (by simp)
  rwa [String.append_empty, String.append_empty] at alone

/-- The file name of a path is its last component, unless that consists of dots. -/
theorem fileName?_of_components {path : String} {folders : List String} {name : String}
    (parts : components path = folders ++ [name]) (oneDot : name ≠ ".") (twoDots : name ≠ "..") :
    fileName? path = some name := by
  have kept : (components path).filter (· != ".") = folders.filter (· != ".") ++ [name] := by
    rw [parts, List.filter_append]
    simp [oneDot]
  rw [fileName?, kept, List.getLast?_append]
  simp [twoDots]

/-! ## Extensions -/

/-- **Text without dots behind a name** joins its extension. -/
theorem nameExtension?_append (name : List Char) {behind : List Char} (noDot : '.' ∉ behind) :
    nameExtension? (name ++ behind) = (nameExtension? name).map (· ++ behind) := by
  have others : ∀ c ∈ behind.reverse, (c != '.') = true := fun c mem =>
    bne_iff_ne.mpr fun same => noDot (same ▸ List.mem_reverse.mp mem)
  simp only [nameExtension?, List.reverse_append, List.takeWhile_append_of_pos others,
    List.dropWhile_append_of_pos others, List.reverse_reverse, List.mem_append, noDot, or_false]
  split <;> rfl

/-- The extension of a path with text behind it. -/
theorem extension?_append {path : String} {folders : List String} {name behind : String}
    (parts : components (path ++ behind) = folders ++ [name ++ behind])
    (oneDot : name ++ behind ≠ ".") (twoDots : name ++ behind ≠ "..")
    (noDot : '.' ∉ behind.toList) :
    extension? (path ++ behind) =
      (nameExtension? name.toList).map fun extension => String.ofList extension ++ behind := by
  rw [extension?, fileName?_of_components parts oneDot twoDots, Option.bind_some,
    String.toList_append, nameExtension?_append _ noDot, Option.map_map]
  congr 1
  funext extension
  simp [String.ofList_append]

/-! ## Artifacts -/

/-- A source is no artifact. -/
theorem isArtifact_of_isSource {path : String} (source : isSource path = true) :
    isArtifact path = false := by
  rw [isArtifact, beq_iff_eq.mp source]
  decide

/-- A component with the suffix of an artifact does not consist of dots. -/
theorem suffix_ne_dots (name : String) :
    name ++ artifactSuffix ≠ "." ∧ name ++ artifactSuffix ≠ ".." := by
  have ends {dots : String} (same : name ++ artifactSuffix = dots) :
      dots.toList.getLast? = some '~' := by
    rw [← same]
    simp [artifactSuffix]
  exact ⟨fun same => absurd (ends same) (by decide), fun same => absurd (ends same) (by decide)⟩

section Named

variable {path : String} {folders : List String} {name : String} (nonempty : path ≠ "")
  (noSlash : path.toList.getLast? ≠ some '/') (parts : components path = folders ++ [name])
include nonempty noSlash parts

theorem components_artifactOf :
    components (artifactOf path) = folders ++ [name ++ artifactSuffix] := by
  obtain ⟨others, last, same, grows⟩ := exists_components_append nonempty noSlash
  obtain ⟨rfl, final⟩ := List.append_inj' (parts.symm.trans same) rfl
  obtain rfl := List.singleton_inj.mp final
  exact grows artifactSuffix (by decide)

variable (oneDot : name ≠ ".") (twoDots : name ≠ "..")
include oneDot twoDots

/-- The suffix joins the extension of a path. -/
theorem extension?_artifactOf :
    extension? (artifactOf path) = (extension? path).map (· ++ artifactSuffix) := by
  have dots := suffix_ne_dots name
  have longer := extension?_append (components_artifactOf nonempty noSlash parts) dots.1 dots.2
    (by decide)
  rw [artifactOf, longer, extension?, fileName?_of_components parts oneDot twoDots,
    Option.bind_some, Option.map_map]
  rfl

/-- **The artifact of a source** is a file that names an artifact. -/
theorem isArtifact_artifactOf (source : isSource path = true) :
    isArtifact (artifactOf path) = true := by
  have extension := beq_iff_eq.mp source
  rw [isArtifact, extension?_artifactOf nonempty noSlash parts oneDot twoDots, extension]
  rfl

/-- **The suffix behind the path of an artifact** gives a path that names neither a source nor
an artifact. -/
theorem artifactOf_artifact (artifact : isArtifact path = true) :
    isSource (artifactOf path) = false ∧ isArtifact (artifactOf path) = false := by
  have extension := beq_iff_eq.mp artifact
  rw [isSource, isArtifact, extension?_artifactOf nonempty noSlash parts oneDot twoDots, extension]
  decide

end Named

end LineAsm.Path
