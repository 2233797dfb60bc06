import RecordGraph.Proofs.Tag.Merging

/-!
# A fragment alone

An annotation of one fragment, a key with a value, gives that property and no other one, whatever
characters the value is made of, as long as it has no blanks at its ends and no separator of
fragments. A colon in the value belongs to the value, since the key ends at the first one.
-/

namespace RecordGraph

namespace Text

theorem trimStart_of_trim {s : List Char} (h : trim s = s) : trimStart s = s := by
  have hself := trimStart_trim s
  rwa [h] at hself

theorem trimEnd_of_trim {s : List Char} (h : trim s = s) : trimEnd s = s := by
  have hself := h
  rwa [trim, trimStart_of_trim h] at hself

theorem trim_append {s t : List Char} (middle : List Char) (hs : trim s = s) (ht : trim t = t)
    (hsne : s ≠ []) (htne : t ≠ []) : trim (s ++ middle ++ t) = s ++ middle ++ t := by
  have hstart : trimStart (s ++ middle ++ t) = s ++ middle ++ t := by
    obtain ⟨c, rest, rfl⟩ := List.exists_cons_of_ne_nil hsne
    have hc : ¬ isBlank c = true :=
      List.dropWhile_eq_self_iff.mp (trimStart_of_trim hs) (Nat.zero_lt_succ rest.length)
    exact List.dropWhile_cons_of_neg hc
  have hend : trimEnd (s ++ middle ++ t) = s ++ middle ++ t := by
    have hlast := List.rdropWhile_eq_self_iff.mp (trimEnd_of_trim ht) htne
    refine List.rdropWhile_eq_self_iff.mpr fun hne => ?_
    rwa [List.getLast_append_of_right_ne_nil _ _ htne]
  rw [trim, hstart, hend]

end Text

namespace Tags

open Text

/-- The annotation that gives a key a value and holds nothing else. -/
def spelt (key value : String) : String :=
  Annotation.written [⟨"", "ll", key ++ ":" ++ value⟩]

/-- A key that is read as it is written. -/
structure IsKey (o : TagOptions) (key : String) : Prop where
  content : IsContent key.toList
  not_colon : ∀ c ∈ key.toList, c ≠ ':'
  unaliased : o.resolveAlias key = key

instance (o : TagOptions) (key : String) : Decidable (IsKey o key) :=
  decidable_of_iff
    (IsContent key.toList ∧ key.toList.all (· ≠ ':') = true ∧ o.resolveAlias key = key)
    ⟨fun h => ⟨h.1, by simpa using h.2.1, h.2.2⟩,
      fun h => ⟨h.content, by simpa using h.not_colon, h.unaliased⟩⟩

theorem isKey_defaultKey : IsKey .standard defaultKey := by
  decide

theorem isKey_foreignKey : IsKey .standard foreignKey := by
  decide

variable {o : TagOptions} {key value : String}

theorem toList_fragment (key value : String) :
    (key ++ ":" ++ value).toList = key.toList ++ ':' :: value.toList := by
  simp

theorem fragments_of_isContent {body : String} (h : IsContent body.toList) :
    fragments body = [body.toList] := by
  have hpieces : pieces (fun c => c == ',' || c == ';') body.toList = [body.toList] :=
    pieces_of_not_sep fun c hc => by simpa using h.not_sep c hc
  have hne : (!body.toList.isEmpty) = true := by simpa using h.ne_nil
  rw [fragments, hpieces, List.map_singleton, h.trimmed, List.filter_singleton, hne]
  rfl

theorem isContent_fragment (hkey : IsContent key.toList) (hvalue : IsContent value.toList) :
    IsContent (key ++ ":" ++ value).toList := by
  rw [toList_fragment]
  constructor
  · exact List.append_ne_nil_of_right_ne_nil _ (List.cons_ne_nil _ _)
  · have htrim := trim_append [':'] hkey.trimmed hvalue.trimmed hkey.ne_nil hvalue.ne_nil
    rwa [List.append_assoc, List.singleton_append] at htrim
  · intro c hc
    rcases List.mem_append.mp hc with hc | hc
    · exact hkey.not_sep c hc
    · rcases List.mem_cons.mp hc with rfl | hc
      · decide
      · exact hvalue.not_sep c hc

theorem readFragment_fragment (hkey : IsKey o key) (hvalue : IsContent value.toList) :
    readFragment o false (key ++ ":" ++ value).toList = some ⟨key, value⟩ := by
  rw [toList_fragment, readFragment_eq_some_iff]
  have hfilled : trim key.toList ≠ [] := hkey.content.trimmed.symm ▸ hkey.content.ne_nil
  have hvalued : trim value.toList ≠ [] := hvalue.trimmed.symm ▸ hvalue.ne_nil
  have hrich := @Defines.rich o key.toList value.toList hkey.not_colon hfilled hvalued
  rwa [hkey.content.trimmed, hvalue.trimmed, String.ofList_toList, String.ofList_toList,
    hkey.unaliased] at hrich

theorem lookup_spelt (key value name : String) : Annotation.lookup (spelt key value) name =
    if "ll" = name then some (key ++ ":" ++ value) else none := by
  have hname : Annotation.IsName "ll".toList := by decide
  have hlegal : ∀ p ∈ [(⟨"", "ll", key ++ ":" ++ value⟩ : Annotation.WrittenPair)], p.Legal := by
    intro p hp
    obtain rfl := List.mem_singleton.mp hp
    exact ⟨fun c hc => absurd hc List.not_mem_nil, hname⟩
  rw [spelt, Annotation.lookup_written hlegal, List.find?_singleton]
  by_cases hname : "ll" = name <;> simp [hname]

theorem properties_spelt (hkey : IsKey .standard key) (hvalue : IsContent value.toList) :
    properties .standard (spelt key value) = [⟨key, value⟩] := by
  have hread : propertiesOf .standard (spelt key value) "ll" = [⟨key, value⟩] := by
    have hnames : TagOptions.standard.columnNamespaces.contains "ll" = false := by decide
    simp only [propertiesOf, lookup_spelt, if_true, hnames,
      fragments_of_isContent (isContent_fragment hkey.content hvalue)]
    rw [List.filterMap_cons, readFragment_fragment hkey hvalue]
    rfl
  have hother : ∀ name, "ll" ≠ name → propertiesOf .standard (spelt key value) name = [] := by
    intro name hname
    simp only [propertiesOf, lookup_spelt, if_neg hname]
  have hnames : TagOptions.standard.namespaces.eraseDups = ["lifeline", "ll", "db"] := by decide
  rw [properties, hnames]
  simp only [List.flatMap_cons, List.flatMap_nil, hread, hother "lifeline" (by decide),
    hother "db" (by decide), List.nil_append, List.append_nil]

theorem value?_spelt (hkey : IsKey .standard key) (hvalue : IsContent value.toList)
    (other : String) : (Tags.ofAnnotation .standard (spelt key value)).value? "lifeline" other =
      if key = other then some value else none := by
  have hmerged := value?_merged .standard (spelt key value) other
  rw [properties_spelt hkey hvalue, List.find?_singleton] at hmerged
  refine hmerged.trans ?_
  by_cases hother : key = other <;> simp [hother]

end Tags

end RecordGraph
