/-!
# The environment

The variables that a process is started with. They are kept as texts of the form `name=value`, in
which nothing marks where the name ends: an entry whose value holds a `=` of its own also answers
to the longer name that runs up to it. Main statement: `entryValue?_eq_some_iff`.
-/

namespace Switchboard.Settings

/-- An environment: the values of variables by name. -/
abbrev Environment := String → Option String

/-- The value that an entry gives to a name. -/
def entryValue? (name entry : String) : Option String :=
  let front := name.toList ++ ['=']
  if front.isPrefixOf entry.toList then some (.ofList (entry.toList.drop front.length)) else none

/-- The environment that holds entries, of which the first that answers to a name counts. -/
def Environment.ofEntries (entries : List String) : Environment := fun name =>
  entries.findSome? (entryValue? name)

/-- An entry gives a name the value that makes it up together with the name and a `=`. -/
theorem entryValue?_eq_some_iff {name entry value : String} :
    entryValue? name entry = some value ↔ entry = name ++ "=" ++ value := by
  simp only [entryValue?, Option.ite_none_right_eq_some, Option.some.injEq,
    List.isPrefixOf_iff_prefix, List.prefix_iff_eq_append]
  constructor
  · rintro ⟨h, rfl⟩
    apply String.toList_injective
    simpa using h.symm
  · rintro rfl
    apply And.intro
    · simp
    · apply String.toList_injective
      simp

end Switchboard.Settings
