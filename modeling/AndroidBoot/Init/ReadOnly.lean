/- source: init/init/property_service.c
   digest: Properties whose name starts with ro. never change, and what loading files leaves. -/

import AndroidBoot.Init.Machine

set_option autoImplicit false

namespace AndroidBoot.Init.ReadOnly

open State Properties Machine Foundation.Run

variable {name : Text}

theorem ro_ne_netChange (fixed : startsWith "ro." name = true) : name ≠ "net.change".toList := by
  rintro rfl
  cases fixed

theorem ro_propertySet {name value : Text} (fixed : startsWith "ro." name = true) (s : InitState)
    (name' value' : Text) (present : s.properties name = some value) :
    (propertySet s name' value').2.properties name = some value := by
  rw [propertySet_at (ro_ne_netChange fixed)]
  obtain rfl | same := eq_or_ne name name'
  · have refused : (store s name value').1 = false := by
      by_contra taken
      have takes := (store_spec s name value').2.1.mp (by simpa using taken)
      have free := takes.2.2.2 (by simp [present])
      simp [fixed] at free
    rw [(store_spec s name value').2.2, refused]
    exact present
  · rw [store_elsewhere same]
    exact present

variable {s : InitState}

theorem ro_handle {name value : Text} (fixed : startsWith "ro." name = true)
    (event : Event) (present : s.properties name = some value) :
    (handle s event).properties name = some value := by
  refine handle_of_write (P := fun s => s.properties name = some value) ?_ ?_ event present
  · intro s t same present
    rw [same]
    exact present
  · exact fun s name' value' present => ro_propertySet fixed s name' value' present

def legal (d : Text × Text) : Bool := isLegalPropertyName d.1 && d.2.length < propValueMax

/-- The value that a list of definitions gives a name: the first of a read-only one, the last of
any other. -/
def defined (list : List (Text × Text)) (name : Text) : Option Text :=
  let mine := list.filter fun d => legal d && d.1 = name
  if startsWith "ro." name then mine.head?.map Prod.snd else mine.getLast?.map Prod.snd

theorem defined_snoc (list : List (Text × Text)) (d : Text × Text) (name : Text) :
    defined (list ++ [d]) name =
      if legal d = true ∧ d.1 = name then
        if startsWith "ro." name then (defined list name).or (some d.2) else some d.2
      else defined list name := by
  unfold defined
  dsimp only
  rw [List.filter_append]
  by_cases fits : legal d = true ∧ d.1 = name
  · rw [List.filter_cons_of_pos (by simpa using fits), List.filter_nil, List.head?_append,
      List.getLast?_concat, Option.map_or, if_pos fits]
    split_ifs <;> rfl
  · rw [List.filter_cons_of_neg (by simpa using fits), List.filter_nil, List.append_nil,
      if_neg fits]

def Roomy (s : InitState) : Prop := ∀ n, (s.world n).room = true

theorem roomy_propertySet (name value : Text) (room : Roomy s) :
    Roomy (propertySet s name value).2 := by
  obtain ⟨m, shifted⟩ := (propertySet_quiet s name value).world
  intro n
  rw [shifted]
  exact room _

theorem roomy_setAll (list : List (Text × Text)) (room : Roomy s) : Roomy (setAll s list) := by
  induction list generalizing s with
  | nil => exact room
  | cons d rest ih => exact ih (roomy_propertySet d.1 d.2 room)

theorem propertySet_defined {list : List (Text × Text)}
    (room : Roomy s) (other : name ≠ "net.change".toList)
    (so_far : s.properties name = defined list name) (d : Text × Text) :
    (propertySet s d.1 d.2).2.properties name = defined (list ++ [d]) name := by
  rw [propertySet_at other, defined_snoc]
  by_cases mine : d.1 = name
  swap
  · rw [store_elsewhere (Ne.symm mine), so_far, if_neg (fun h => mine h.2)]
  subst mine
  obtain ⟨-, takes, properties⟩ := store_spec s d.1 d.2
  rw [properties]
  by_cases fits : legal d = true
  · obtain ⟨named, short⟩ : isLegalPropertyName d.1 = true ∧ d.2.length < propValueMax := by
      simpa [legal] using fits
    have same : legal d = true ∧ d.1 = d.1 := ⟨fits, rfl⟩
    rw [if_pos same, ← so_far]
    cases present : s.properties d.1 with
    | none =>
      have stored : (store s d.1 d.2).1 = true :=
        takes.mpr ⟨named, short, fun _ => room 0, fun h => absurd present h⟩
      rw [if_pos stored, Function.update_self]
      split_ifs <;> rfl
    | some old =>
      cases fixed : startsWith "ro." d.1 with
      | true =>
        have refused : ¬ (store s d.1 d.2).1 = true := by
          intro stored
          have free := (takes.mp stored).2.2.2 (by simp [present])
          simp [fixed] at free
        rw [if_neg refused]
        exact present
      | false =>
        have stored : (store s d.1 d.2).1 = true :=
          takes.mpr ⟨named, short, fun h => by simp [present] at h, fun _ => fixed⟩
        rw [if_pos stored, Function.update_self]
        rfl
  · have refused : ¬ (store s d.1 d.2).1 = true := by
      intro stored
      obtain ⟨named, short, -⟩ := takes.mp stored
      exact fits (by simp [legal, named, short])
    rw [if_neg refused, if_neg (fun h => fits h.1), so_far]

theorem setAll_defined (empty : ∀ name, s.properties name = none) (room : Roomy s)
    (list : List (Text × Text)) (other : name ≠ "net.change".toList) :
    (setAll s list).properties name = defined list name := by
  induction list using List.reverseRecOn with
  | nil =>
    rw [show setAll s [] = s from rfl, empty]
    unfold defined
    split_ifs <;> rfl
  | append_singleton list d ih =>
    have last : setAll s (list ++ [d]) = (propertySet (setAll s list) d.1 d.2).2 := by
      unfold setAll
      rw [List.foldl_append]
      rfl
    rw [last]
    exact propertySet_defined (roomy_setAll list room) other ih d

def loadAll (s : InitState) (files : List Text) : InitState :=
  files.foldl (fun s content => loadProperties s (content ++ ['\n'])) s

theorem loadAll_eq (s : InitState) (files : List Text) :
    loadAll s files = setAll s (files.flatMap fun content => definitions (content ++ ['\n'])) := by
  induction files generalizing s with
  | nil => rfl
  | cons content rest ih =>
    rw [List.flatMap_cons]
    unfold setAll
    rw [List.foldl_append]
    exact ih (loadProperties s (content ++ ['\n']))

/-- In every run a read-only property keeps its value. Files loaded into an empty store with room
leave each read-only property with its first legal definition, and every other one but
`net.change` with its last. -/
theorem ro_properties_fixed :
    (∀ start s, Reach step (fun _ _ => True) start s → ∀ name value,
      startsWith "ro." name = true → start.properties name = some value →
        s.properties name = some value) ∧
    (∀ s : InitState, (∀ name, s.properties name = none) → Roomy s → ∀ files name,
      name ≠ "net.change".toList →
        (loadAll s files).properties name =
          defined (files.flatMap fun content => definitions (content ++ ['\n'])) name) := by
  constructor
  · intro start s run name value fixed present
    refine run.invariant (fun s => s.properties name = some value) present ?_
    intro s event t present _ next
    obtain ⟨rfl, -⟩ := step_eq_some next
    exact ro_handle fixed event present
  · intro s empty room files name other
    rw [loadAll_eq]
    exact setAll_defined empty room _ other

theorem ro_properties_fixed_files :
    let files := ["ro.debuggable=0\nsys.usb.config=none".toList,
      "ro.debuggable = 1\n# sys.usb.config=mtp\nsys.usb.config= adb".toList]
    let s := loadAll (booting [] []) files
    let t := handle s (.propertySet "ro.debuggable".toList "1".toList)
    s.properties "ro.debuggable".toList = some "0".toList ∧
      s.properties "sys.usb.config".toList = some "adb".toList ∧
      t.properties "ro.debuggable".toList = some "0".toList := by
  intro files s t
  have loaded := ro_properties_fixed.2 (booting [] []) (fun _ => rfl) (fun _ => rfl) files
  have first : s.properties "ro.debuggable".toList = some "0".toList :=
    (loaded _ (by decide)).trans (by decide +kernel)
  have last : s.properties "sys.usb.config".toList = some "adb".toList :=
    (loaded _ (by decide)).trans (by decide +kernel)
  have run : Reach step (fun _ _ => True) s t := .next .start trivial (if_neg (by decide +kernel))
  exact ⟨first, last, ro_properties_fixed.1 s t run _ _ (by decide) first⟩

end AndroidBoot.Init.ReadOnly
