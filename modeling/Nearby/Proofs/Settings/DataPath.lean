/-
Data paths that stand in the environment. The value of a variable takes the place of its name
before the document is read, so it arrives as it is just if it has no quotes, no backslashes and no
control characters but tabulators. Any other value is refused or arrives as another text; it may
close its quote and go on with entries of its own.
-/
import Nearby.Settings.Document
import Nearby.Proofs.Text.Template
import Nearby.Proofs.Toml.Reader
import Nearby.Proofs.Toml.Text
import Mathlib.Data.Bool.AllAny

namespace Nearby

/-! ## What a document has -/

theorem Toml.lookup_fields {form : TableForm} {entries given : Toml.Entries} {names : List String}
    (fields : (Toml.table form entries).fields names = some given) {key : String}
    (known : key ∈ names) : given.lookup key = entries.lookup key := by
  unfold Toml.fields at fields
  split at fields
  case h_1 table =>
    cases table
    split at fields
    case isTrue =>
      cases fields
      exact Toml.lookup_filter names.contains (List.contains_iff_mem.2 known)
    case isFalse => cases fields
  case h_5 other _ _ _ => exact absurd rfl (other _ _)
  all_goals rename_i other; cases other

namespace Settings

open Toml (Literal)

/-- Whatever else the document has, the text that it has for the path is the data path. -/
theorem dataPath_of_ofEntries {entries : Toml.Entries} {settings : Settings} {s : String}
    (here : Toml.HasTable "data" (Toml.HasText "path" s) (.header, entries))
    (described : ofEntries entries = some settings) : settings.dataPath = some s := by
  obtain ⟨form, inner, table, text⟩ := here
  obtain ⟨given, fields, described⟩ := Option.bind_eq_some_iff.1 described
  obtain ⟨search, -, described⟩ := Option.bind_eq_some_iff.1 described
  obtain ⟨data, optional, described⟩ := Option.bind_eq_some_iff.1 described
  cases described
  have data : ∃ d, DataSettings.ofToml (.table form inner) = some d ∧ data = some d := by
    unfold Toml.optional at optional
    rw [Toml.lookup_fields fields (by decide), table] at optional
    obtain ⟨d, read, rfl⟩ := Option.map_eq_some_iff.1 optional
    exact ⟨d, read, rfl⟩
  obtain ⟨d, read, rfl⟩ := data
  obtain ⟨given', fields', read⟩ := Option.bind_eq_some_iff.1 read
  split at read
  case isTrue positional => cases positional.1
  case isFalse =>
    obtain ⟨path, found, read⟩ := Option.bind_eq_some_iff.1 read
    obtain ⟨cache, -, read⟩ := Option.bind_eq_some_iff.1 read
    cases read
    rw [Toml.lookup_fields fields' (by decide), show inner.lookup "path" = _ from text] at found
    exact found.symm

/-! ## The document of a variable -/

/-- A document that takes its data path from a variable. -/
def pathFrom (name ending : String) : String :=
  "[data]\npath = \"$\x7b" ++ name ++ "\x7d\"" ++ ending

theorem isBare_data : Toml.IsBare "data".toList :=
  ⟨by decide, List.all_iff_forall_prop.1 (by decide)⟩

theorem isBare_path : Toml.IsBare "path".toList :=
  ⟨by decide, List.all_iff_forall_prop.1 (by decide)⟩

theorem toList_of_short {ending : String} (short : ending = "" ∨ ending = "\n") :
    ending.toList = [] ∨ ending.toList = ['\n'] := by
  rcases short with rfl | rfl
  · exact .inl rfl
  · exact .inr rfl

section PathFrom

variable {valueOf : String → Option String} {name v ending : String}
  (isName : Text.IsName name.toList) (given : valueOf name = some v)
  (short : ending = "" ∨ ending = "\n")
include isName given short

theorem fill_pathFrom :
    Text.fill valueOf (pathFrom name ending) = .ofList
      (Toml.opening "data".toList "path".toList ++ (v.toList ++ '"' :: ending.toList)) := by
  have plain : '$' ∉ Toml.opening "data".toList "path".toList := by decide
  have plain' : '$' ∉ '"' :: ending.toList := by rcases short with rfl | rfl <;> decide
  have value : Text.valueOr valueOf name.toList = v.toList := by
    unfold Text.valueOr
    rw [String.ofList_toList, given]
    rfl
  have whole : pathFrom name ending = .ofList (Toml.opening "data".toList "path".toList ++
      (Text.written name.toList ++ '"' :: ending.toList)) := by
    have front : "[data]\npath = \"$\x7b".toList =
        Toml.opening "data".toList "path".toList ++ ['$', '{'] := by decide
    have back : "\x7d\"".toList = ['}', '"'] := by decide
    apply String.toList_inj.1
    unfold pathFrom
    simp only [String.toList_append]
    rw [front, back]
    simp only [String.toList_ofList, Text.written, List.append_assoc, List.cons_append,
      List.nil_append]
  rw [whole, Text.fill_placeholder plain isName plain', value]

theorem dataPath_of_read {settings : Settings}
    (reads : read valueOf (pathFrom name ending) = .ok settings) :
    ∃ text left, Toml.readText ('"' :: (v.toList ++ '"' :: ending.toList)) = some (text, left) ∧
      settings.dataPath = some (.ofList text) := by
  unfold read at reads
  rw [fill_pathFrom isName given short] at reads
  split at reads
  case h_1 described =>
    cases reads
    obtain ⟨entries, built, described⟩ := Option.bind_eq_some_iff.1 described
    obtain ⟨text, left, here, table⟩ := Toml.hasText_of_read isBare_data isBare_path built
    exact ⟨text, left, here, dataPath_of_ofEntries table described⟩
  case h_2 => cases reads

theorem read_of_readText {text : List Char}
    (here : Toml.readText ('"' :: (v.toList ++ '"' :: ending.toList)) =
      some (text, ending.toList)) :
    read valueOf (pathFrom name ending) = .ok { data := some { path := .ofList text } } := by
  unfold read
  rw [fill_pathFrom isName given short,
    Toml.read_opening isBare_data isBare_path (toList_of_short short) here]
  simp only [String.ofList_toList]
  rfl

end PathFrom

/-- The value of the variable is the data path just if each of its characters stands for itself
between quotes, and then everything else keeps its default. -/
theorem dataPath_arrives_iff {valueOf : String → Option String} {name v ending : String}
    (isName : Text.IsName name.toList) (given : valueOf name = some v)
    (short : ending = "" ∨ ending = "\n") :
    (read valueOf (pathFrom name ending) = .ok { data := some { path := v } } ↔
      ∀ c ∈ v.toList, Literal c) ∧
    ((∃ settings, read valueOf (pathFrom name ending) = .ok settings ∧
      settings.dataPath = some v) ↔ ∀ c ∈ v.toList, Literal c) := by
  have arrives : (∀ c ∈ v.toList, Literal c) →
      read valueOf (pathFrom name ending) = .ok { data := some { path := v } } := by
    intro literal
    have here := Toml.readText_literal (toList_of_short short) literal
    rw [read_of_readText isName given short here, String.ofList_toList]
  have literal : ∀ settings, read valueOf (pathFrom name ending) = .ok settings →
      settings.dataPath = some v → ∀ c ∈ v.toList, Literal c := by
    intro settings reads path
    obtain ⟨text, left, here, path'⟩ := dataPath_of_read isName given short reads
    obtain rfl : String.ofList text = v := Option.some.inj (path'.symm.trans path)
    rw [String.toList_ofList] at here ⊢
    exact Toml.literal_of_readText (toList_of_short short) here
  refine ⟨⟨fun reads => literal _ reads rfl, arrives⟩, ?_, fun all => ⟨_, arrives all, rfl⟩⟩
  rintro ⟨settings, reads, path⟩
  exact literal settings reads path

theorem dataPath_arrives_from_variable :
    Text.IsName "V".toList ∧
      read (fun name => if name = "V" then some "/srv/$\x7bV\x7d ä.json" else none)
        (pathFrom "V" "\n") = .ok { data := some { path := "/srv/$\x7bV\x7d ä.json" } } :=
  have isName : Text.IsName "V".toList := ⟨by decide, by decide⟩
  ⟨isName, (dataPath_arrives_iff isName (if_pos rfl) (.inr rfl)).1.2
    (List.all_iff_forall_prop.1 (by decide))⟩

/-- A path with a backslash arrives with another character in its place, so not every value arrives
as it is. -/
theorem dataPath_of_backslash :
    read (fun name => if name = "V" then some "C:\\temp" else none) (pathFrom "V" "") =
      .ok { data := some { path := "C:\temp" } } ∧
    ¬ ∀ v : String, v ≠ "" → '\x00' ∉ v.toList →
      read (fun name => if name = "V" then some v else none) (pathFrom "V" "") =
        .ok { data := some { path := v } } := by
  have isName : Text.IsName "V".toList := ⟨by decide, by decide⟩
  have here : Toml.readText ('"' :: ("C:\\temp".toList ++ '"' :: "".toList)) =
      some ("C:\temp".toList, "".toList) := by decide +kernel
  have reads : read (fun name => if name = "V" then some "C:\\temp" else none) (pathFrom "V" "") =
      .ok { data := some { path := .ofList "C:\temp".toList } } :=
    read_of_readText isName (if_pos rfl) (.inl rfl) here
  rw [String.ofList_toList] at reads
  refine ⟨reads, fun all => ?_⟩
  have same := reads.symm.trans (all "C:\\temp" (by decide) (by decide))
  simp at same

-- a value that closes its quote can turn the snapshot on
example : (read (fun _ => some "a\"\ncache = true #") (pathFrom "V" "")).toOption.map
    keepsSnapshot = some true := by
  decide +kernel

end Settings

end Nearby
