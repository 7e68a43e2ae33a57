import Roster.Command.Basic
import Roster.Proofs.Json.Lookup
import Roster.Proofs.Text.Cutting
import Roster.Web.Parameters

/-!
# Options read from the command line

Words of the form `--name=value` (`optionWord`) give their values to the options of a level, in
whatever order they stand, if each option takes its value and none is named twice:
`Arguments.read_options`. What is given is found by its name (`Arguments.value?_ofOptions`), and a
command before the options starts their level (`read_command`).
-/

namespace Roster.Command

open Fields

variable {level : Level} {name value : String} {given : List (String × String)}

/-- The word that gives a value to an option. -/
def optionWord (name value : String) : String :=
  String.ofList ('-' :: '-' :: (name.toList ++ '=' :: value.toList))

/-- Whether nothing but switches may be given on a level, and none has an equals sign in its
name. -/
structure Level.IsPlain (level : Level) : Prop where
  commands : level.commands = []
  positional : level.positional = none
  equals_notMem : ∀ s ∈ level.switches, '=' ∉ s.long.toList

/-- The switch of a level with a name. -/
def Level.switch? (level : Level) (name : String) : Option Switch :=
  level.switches.find? fun s => s.long.toList == name.toList

/-- What the values of the option with a name have to be. -/
def Level.kind? (level : Level) (name : String) : Option ValueKind :=
  (level.switch? name).bind Switch.value

/-- Whether a level has an option of a name that takes a value. -/
def Level.Takes (level : Level) (name value : String) : Prop :=
  ∃ kind, level.kind? name = some kind ∧ kind.accepts value = true

theorem Level.long_of_switch? {s : Switch} (h : level.switch? name = some s) : s.long = name := by
  have hmatch : (s.long.toList == name.toList) = true :=
    List.find?_some (p := fun s : Switch => s.long.toList == name.toList) h
  exact String.toList_injective (beq_iff_eq.mp hmatch)

/-- A word with a name and a value gives the value to the option of that name. -/
private theorem scan_optionWord {s : Switch} {kind : ValueKind} (hlevel : level.IsPlain)
    (hswitch : level.switch? name = some s) (hkind : s.value = some kind) {words : List String}
    {items : List Item} (hwords : scan level none words = (items, none)) :
    scan level none (optionWord name value :: words) = (.value s value :: items, none) := by
  -- The name of an option ends before the first `=`, so it must have none itself.
  have hname : '=' ∉ name.toList := by
    rw [← Level.long_of_switch? hswitch]
    exact hlevel.equals_notMem s (List.mem_of_find?_eq_some hswitch)
  have hlong : longItems level.switches (name.toList ++ '=' :: value.toList)
      = ([.value s value], none) := by
    have hfind : level.switches.find? (fun s => s.long.toList == name.toList) = some s := hswitch
    simp only [longItems, Text.cut?_singleton hname, hfind, hkind, String.ofList_toList]
  have hne : name.toList ++ '=' :: value.toList ≠ [] :=
    List.append_ne_nil_of_right_ne_nil _ (List.cons_ne_nil _ _)
  rw [scan, optionWord, String.toList_ofList, hlevel.commands]
  obtain ⟨c, cs, hcs⟩ := List.exists_cons_of_ne_nil hne
  rw [hcs] at hlong ⊢
  simp [hlong, hwords]

/-- The arguments that values of options make, the last one first. -/
def Arguments.ofOptions (given : List (String × String)) : Arguments :=
  { values := given.reverse }

/-- One more value is taken, if its option has none yet. -/
theorem Arguments.add_value {s : Switch} {kind : ValueKind} {arguments : Arguments}
    (hkind : s.value = some kind) (haccepts : kind.accepts value = true)
    (hnew : s.long ∉ keys arguments.values) :
    add level arguments (.value s value)
      = .ok { arguments with values := (s.long, value) :: arguments.values } := by
  have hany : ¬ (arguments.values.any fun given => given.1 == s.long) = true := by
    intro hany
    obtain ⟨field, hfield, heq⟩ := List.any_eq_true.mp hany
    exact hnew (beq_iff_eq.mp heq ▸ List.mem_map_of_mem hfield)
  have htakes : s.value.any (ValueKind.accepts value) = true := by
    rw [hkind, Option.any_some, haccepts]
  rw [add, if_neg hany, if_pos htakes]

/-- The words of options are taken apart, and their values taken one after the other. -/
theorem scan_options (hlevel : level.IsPlain)
    (htakes : ∀ field ∈ given, level.Takes field.1 field.2) :
    ∃ items, scan level none (given.map fun field => optionWord field.1 field.2) = (items, none) ∧
      ∀ arguments : Arguments, (keys (given.reverse ++ arguments.values)).Nodup →
        items.foldlM (Arguments.add level) arguments
          = .ok { arguments with values := given.reverse ++ arguments.values } := by
  induction given with
  | nil => exact ⟨[], rfl, fun _ _ => rfl⟩
  | cons field given ih =>
    obtain ⟨⟨kind, hfield, haccepts⟩, hrest⟩ := List.forall_mem_cons.mp htakes
    obtain ⟨s, hswitch, hkind⟩ := Option.bind_eq_some_iff.mp hfield
    obtain ⟨items, hscan, hfold⟩ := ih hrest
    have hlong : s.long = field.1 := Level.long_of_switch? hswitch
    refine ⟨.value s field.2 :: items, scan_optionWord hlevel hswitch hkind hscan,
      fun arguments hnodup => ?_⟩
    rw [List.reverse_cons, List.append_assoc, List.singleton_append] at hnodup ⊢
    -- An option that is given once more is refused.
    have hnew : s.long ∉ keys arguments.values := by
      have htail := hnodup
      rw [keys, List.map_append] at htail
      rw [hlong]
      exact (List.nodup_cons.mp (List.nodup_append.mp htail).2.1).1
    rw [List.foldlM_cons, Arguments.add_value hkind haccepts hnew, hlong]
    exact hfold { arguments with values := field :: arguments.values } hnodup

/-- Options that a level takes are read, if none is named twice. -/
theorem Arguments.read_options (hlevel : level.IsPlain) (hnames : (keys given).Nodup)
    (htakes : ∀ field ∈ given, level.Takes field.1 field.2) :
    read level (given.map fun field => optionWord field.1 field.2)
      = .ok (ofOptions given, none) := by
  obtain ⟨items, hscan, hfold⟩ := scan_options hlevel htakes
  have hreverse : (keys (given.reverse ++ ([] : List (String × String)))).Nodup := by
    rw [List.append_nil, keys, List.map_reverse]
    exact (List.reverse_perm (given.map Prod.fst)).nodup_iff.mpr hnames
  have hvalues := hfold {} hreverse
  rw [List.append_nil] at hvalues
  rw [read, hscan]
  simp only [hvalues, hlevel.positional]
  rfl

theorem Arguments.value?_ofOptions (hnames : (keys given).Nodup) (name : String) :
    (ofOptions given).value? name = get? name given := by
  rw [value?, ofOptions, lookup_eq_get?]
  exact (get?_perm hnames (List.reverse_perm given).symm).symm

/-! ## Options by their kinds -/

private theorem integer?_word32Text (n : UInt32) :
    Number.integer? (Web.word32Text n).toList = some (n.toNat : Int) := by
  have htext : Number.integerText n.toNat = Number.naturalText n.toNat :=
    if_neg (Int.not_lt.mpr (Int.natCast_nonneg n.toNat))
  rw [Web.word32Text, String.toList_ofList, ← htext, Number.integer?_integerText]

/-- Any text is taken. -/
theorem takes_text (hkind : level.kind? name = some .text) : level.Takes name value :=
  ⟨.text, hkind, rfl⟩

/-- The name of a member is taken. -/
theorem takes_member {α : Type} {members : List (String × α)} {a : α}
    (hkind : level.kind? name = some (.member (members.map Prod.fst)))
    (h : members.lookup value = some a) : level.Takes name value := by
  have hmem : value ∈ keys members :=
    isSome_get?_iff.mp (by rw [← lookup_eq_get?, h]; rfl)
  exact ⟨_, hkind, List.contains_iff_mem.mpr hmem⟩

/-- A word of 32 bits in decimal is taken. -/
theorem takes_word32 (hkind : level.kind? name = some (naturalKind UInt32.size)) (n : UInt32) :
    level.Takes name (Web.word32Text n) := by
  have hbounds : ((0 : Int) ≤ n.toNat && (n.toNat : Int) ≤ (UInt32.size : Nat) - 1) = true := by
    have hlt : n.toNat < UInt32.size := n.toNat_lt
    rw [Bool.and_eq_true, decide_eq_true_iff, decide_eq_true_iff]
    omega
  refine ⟨_, hkind, ?_⟩
  rw [naturalKind, ValueKind.accepts, Number.integerIn?, integer?_word32Text, Option.filter_some,
    if_pos hbounds]
  rfl

theorem Arguments.word32?_eq {arguments : Arguments} {n : Option UInt32}
    (h : arguments.value? name = n.map Web.word32Text) : arguments.word32? name = n := by
  rw [word32?, natural?, h]
  cases n with
  | none => rfl
  | some n =>
    rw [Option.map_some, Option.bind_some, integer?_word32Text, Option.map_some, Option.map_some,
      Int.toNat_natCast, UInt32.ofNat_toNat]

theorem Arguments.member_eq {α : Type} {arguments : Arguments} {members : List (String × α)}
    {a default : α} (h : arguments.value? name = some value)
    (hvalue : members.lookup value = some a) :
    arguments.member name members default = a := by
  rw [member, h, Option.bind_some, hvalue, Option.getD_some]

/-! ## Commands -/

/-- A command that stands first is followed by its own arguments. -/
theorem read_command {words : List String} {arguments : Arguments}
    {next : Option (String × List String)} (hname : name ∈ names)
    (hread : Arguments.read (Command.level name) words = .ok (arguments, next)) :
    Invocation.read (name :: words) = .ok {
      settingsPath := arguments.value? "config"
      dataPath := arguments.value? "data"
      command := arguments.command name } := by
  have hroot : Arguments.read rootLevel (name :: words) = .ok ({}, some (name, words)) := by
    have hcommand : rootLevel.commands.contains name = true :=
      List.contains_iff_mem.mpr (List.mem_append_left _ hname)
    rw [Arguments.read, scan, if_pos hcommand]
    rfl
  have hhelp : name ≠ "help" := by
    rintro rfl
    exact absurd hname (by decide)
  have hvalue (switch : String) : (arguments.value? switch <|> ({} : Arguments).value? switch)
      = arguments.value? switch := by
    cases arguments.value? switch <;> rfl
  rw [Invocation.read, hroot]
  simp only [bind, Except.bind, hread, hvalue]
  rfl

end Roster.Command
