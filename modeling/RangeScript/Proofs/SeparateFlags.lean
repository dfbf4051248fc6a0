import RangeScript.Command.Options

/-!
# A cluster means its separate flags

What an argument is read as depends on those before it: behind a `c` that waits it is a program, and behind two
dashes it is a file, whatever it looks like.

* `Stage`, `Role` : what the next argument can be, and what it is read as;
* `clusters args` : the letters of the arguments that are read as clusters;
* `separate args` : the arguments with each cluster written as flags of one letter;
* `Item`, `Stage.items` : what the arguments ask for, one thing after the other;
* `Stage.Asks stage args asked stage'` : from a stage on, the arguments ask for `asked` and lead to `stage'`.

The options are told by the items alone (`Options.ofArgs_eq`). The separate flags of a cluster ask for what the
cluster asks for and leave the same stage behind them (`Stage.Asks.separateLetters`), unless the first letter that
is no flag is a dash: it would be written as two dashes. Switches commute with all other items
(`Seen.take_switchOn`). So clusters may be taken apart, and switches may be put in or left out wherever a flag is
read (`clusters_mean_separate_flags`).
-/

namespace RangeScript.Command

/-! ## Clusters -/

/-- The flags that take nothing. -/
inductive Switch
  | dump
  | quiet
deriving DecidableEq

namespace Switch

def letter : Switch → Char
  | dump => 'd'
  | quiet => 'q'

def ofLetter? : Char → Option Switch
  | 'd' => some dump
  | 'q' => some quiet
  | _ => none

theorem letter_of_ofLetter? {c : Char} {switch : Switch} (h : ofLetter? c = some switch) : c = switch.letter := by
  unfold ofLetter? at h
  split at h <;> cases h <;> rfl

end Switch

/-- The argument that is the cluster of the letters. -/
def cluster (letters : List Char) : String := String.ofList ('-' :: letters)

/-- A cluster as flags of one letter each. A `c` takes the rest of the cluster as its program, which becomes an
argument of its own. A letter that is no flag ends the cluster. -/
def separateLetters : List Char → List String
  | [] => []
  | ['c'] => [cluster ['c']]
  | 'c' :: text => [cluster ['c'], String.ofList text]
  | letter :: letters =>
    match Switch.ofLetter? letter with
    | some _ => cluster [letter] :: separateLetters letters
    | none => [cluster [letter]]

/-- Whether the cluster ends in a `c` that takes the next argument as its program. -/
def waits : List Char → Bool
  | [] => false
  | ['c'] => true
  | letter :: letters => (Switch.ofLetter? letter).isSome && waits letters

/-- The first letter of the cluster that is no flag. -/
def unknown? : List Char → Option Char
  | [] => none
  | 'c' :: _ => none
  | letter :: letters =>
    match Switch.ofLetter? letter with
    | some _ => unknown? letters
    | none => some letter

/-! ## What arguments are read as -/

inductive Role
  | cluster (letters : List Char)
  | code
  | file
  | dashes

/-- What the next argument can be: a cluster, a file or two dashes; the program that a `c` waits for; a file
only. -/
inductive Stage
  | flags
  | code
  | files
deriving DecidableEq

namespace Stage

def role : Stage → String → Role
  | flags, arg =>
    if arg = "--" then .dashes
    else
      match flags? arg with
      | some letters => .cluster letters
      | none => .file
  | code, _ => .code
  | files, _ => .file

/-- The stage behind an argument. A letter that is no flag does not count here. -/
def next (stage : Stage) (arg : String) : Stage :=
  match stage.role arg with
  | .cluster letters => if waits letters then code else flags
  | .code => flags
  | .file => stage
  | .dashes => files

/-- The stage behind several arguments. -/
def after (stage : Stage) (args : List String) : Stage := args.foldl next stage

/-- The letters of an argument that is read as a cluster. -/
def letters? (stage : Stage) (arg : String) : Option (List Char) :=
  match stage.role arg with
  | .cluster letters => some letters
  | _ => none

def clusters : Stage → List String → List (List Char)
  | _, [] => []
  | stage, arg :: rest =>
    match stage.letters? arg with
    | some letters => letters :: if (unknown? letters).isSome then [] else clusters (stage.next arg) rest
    | none => clusters (stage.next arg) rest

def separate : Stage → List String → List String
  | _, [] => []
  | stage, arg :: rest => (stage.letters? arg).elim [arg] separateLetters ++ separate (stage.next arg) rest

end Stage

/-- The clusters that are read, by their letters: nothing is read behind a letter that is no flag. -/
def clusters (args : List String) : List (List Char) := Stage.flags.clusters args

/-- The arguments with each cluster written as separate flags. -/
def separate (args : List String) : List String := Stage.flags.separate args

namespace Stage

variable {stage : Stage} {arg : String} {letters : List Char}

theorem role_of_flags? (hdashes : arg ≠ "--") (h : flags? arg = some letters) :
    flags.role arg = .cluster letters := by
  rw [role, if_neg hdashes, h]

theorem role_of_flags?_eq_none (hdashes : arg ≠ "--") (h : flags? arg = none) : flags.role arg = .file := by
  rw [role, if_neg hdashes, h]

theorem eq_flags_of_role (h : stage.role arg = .cluster letters) : stage = flags := by
  cases stage with
  | flags => rfl
  | _ => cases h

theorem next_of_role (h : stage.role arg = .cluster letters) :
    stage.next arg = if waits letters then code else flags := by
  rw [next, h]

theorem letters?_of_role (h : stage.role arg = .cluster letters) : stage.letters? arg = some letters := by
  rw [letters?, h]

theorem clusters_cons_of_role (h : stage.role arg = .cluster letters) (rest : List String) :
    stage.clusters (arg :: rest) =
      letters :: if (unknown? letters).isSome then [] else (if waits letters then code else flags).clusters rest := by
  rw [clusters, letters?_of_role h, next_of_role h]

theorem role_cluster (h : letters ≠ []) (hdash : letters ≠ ['-']) :
    flags.role (cluster letters) = .cluster letters := by
  have hne : cluster letters ≠ "--" := by
    intro heq
    have hchars := congrArg String.toList heq
    rw [cluster, String.toList_ofList] at hchars
    exact hdash (List.cons.inj hchars).2
  have hflags : flags? (cluster letters) = some letters := by
    obtain ⟨c, letters, rfl⟩ := List.exists_cons_of_ne_nil h
    simp [flags?, cluster]
  exact role_of_flags? hne hflags

theorem role_flag {letter : Char} (h : letter ≠ '-') : flags.role (cluster [letter]) = .cluster [letter] :=
  role_cluster (List.cons_ne_nil _ _) (by simpa using h)

theorem after_append (stage : Stage) (xs ys : List String) : stage.after (xs ++ ys) = (stage.after xs).after ys :=
  List.foldl_append

end Stage

/-! ## What arguments ask for -/

/-- One thing that the arguments ask for, or that is wrong with them. -/
inductive Item
  | switch (switch : Switch)
  | code (text : String)
  | file (name : String)
  | missingCode
  | unknown (letter : Char)

/-- The items of a cluster. A `c` that waits has none: its item is that of the next argument. -/
def letterItems : List Char → List Item
  | [] => []
  | ['c'] => []
  | 'c' :: text => [.code (String.ofList text)]
  | letter :: letters =>
    match Switch.ofLetter? letter with
    | some switch => .switch switch :: letterItems letters
    | none => [.unknown letter]

section Letters
variable {letter : Char} (hc : letter ≠ 'c') (h : Switch.ofLetter? letter = none) (letters : List Char)

theorem letterItems_cons_letter (switch : Switch) :
    letterItems (switch.letter :: letters) = .switch switch :: letterItems letters := by
  cases switch <;> simp [letterItems, Switch.letter, Switch.ofLetter?]

theorem waits_cons_letter (switch : Switch) : waits (switch.letter :: letters) = waits letters := by
  cases switch <;> simp [waits, Switch.letter, Switch.ofLetter?]

theorem unknown?_cons_letter (switch : Switch) : unknown? (switch.letter :: letters) = unknown? letters := by
  cases switch <;> simp [unknown?, Switch.letter, Switch.ofLetter?]

include hc h

theorem letterItems_cons_unknown : letterItems (letter :: letters) = [.unknown letter] := by
  simp [letterItems, h, hc]

theorem waits_cons_unknown : waits (letter :: letters) = false := by
  simp [waits, h, hc]

theorem unknown?_cons_unknown : unknown? (letter :: letters) = some letter := by
  simp [unknown?, h]

theorem Seen.cluster_cons_unknown (s : Seen) : s.cluster (letter :: letters) = .error (.unknownOption letter) := by
  have hd : letter ≠ 'd' := by
    rintro rfl
    cases h
  have hq : letter ≠ 'q' := by
    rintro rfl
    cases h
  simp [Seen.cluster, hc]

end Letters

theorem letterItems_map_letter (switches : List Switch) :
    letterItems (switches.map Switch.letter) = switches.map .switch := by
  induction switches with
  | nil => rfl
  | cons switch switches ih => rw [List.map_cons, letterItems_cons_letter, ih, List.map_cons]

theorem waits_map_letter (switches : List Switch) : waits (switches.map Switch.letter) = false := by
  induction switches with
  | nil => rfl
  | cons switch switches ih => rw [List.map_cons, waits_cons_letter, ih]

namespace Stage

/-- The items of an argument. -/
def argItems (stage : Stage) (arg : String) : List Item :=
  match stage.role arg with
  | .cluster letters => letterItems letters
  | .code => [.code arg]
  | .file => [.file arg]
  | .dashes => []

/-- The items of several arguments, as far as they go. -/
def read : Stage → List String → List Item
  | _, [] => []
  | stage, arg :: rest => stage.argItems arg ++ read (stage.next arg) rest

/-- What is wrong if the arguments end at this stage. -/
def ending : Stage → List Item
  | code => [.missingCode]
  | flags | files => []

/-- The items of the arguments, when there are no others. -/
def items (stage : Stage) (args : List String) : List Item := stage.read args ++ (stage.after args).ending

theorem argItems_of_role {stage : Stage} {arg : String} {letters : List Char}
    (h : stage.role arg = .cluster letters) : stage.argItems arg = letterItems letters := by
  rw [argItems, h]

theorem read_append (stage : Stage) (xs ys : List String) :
    stage.read (xs ++ ys) = stage.read xs ++ (stage.after xs).read ys := by
  induction xs generalizing stage with
  | nil => rfl
  | cons x xs ih =>
    rw [List.cons_append, read, read, ih, List.append_assoc]
    rfl

theorem items_append (stage : Stage) (xs ys : List String) :
    stage.items (xs ++ ys) = stage.read xs ++ (stage.after xs).items ys := by
  rw [items, items, read_append, after_append, List.append_assoc]

theorem items_cons (stage : Stage) (arg : String) (rest : List String) :
    stage.items (arg :: rest) = stage.argItems arg ++ (stage.next arg).items rest :=
  List.append_assoc ..

theorem items_files (args : List String) : files.items args = args.map .file := by
  induction args with
  | nil => rfl
  | cons arg rest ih =>
    rw [items_cons, List.map_cons, ← ih]
    rfl

end Stage

/-! ## The options are told by the items -/

/-- The options with more switches. The source is kept. -/
def Options.switchOn (o : Options) (switches : List Switch) : Options :=
  { o with dump := o.dump || switches.contains .dump, quiet := o.quiet || switches.contains .quiet }

namespace Seen

/-- What was seen, with more switches. -/
def switchOn (s : Seen) (switches : List Switch) : Seen :=
  { s with dump := s.dump || switches.contains .dump, quiet := s.quiet || switches.contains .quiet }

/-- Takes in an item. -/
def take (s : Seen) : Item → Except UsageError Seen
  | .switch switch => .ok (s.switchOn [switch])
  | .code text => .ok { s with code := some text }
  | .file name => .ok { s with files := s.files ++ [name] }
  | .missingCode => .error .missingCode
  | .unknown letter => .error (.unknownOption letter)

/-- The options, when all items are taken in. -/
def options (s : Seen) : Except UsageError Options := s.source.map (Options.mk s.dump s.quiet)

variable (s : Seen)

theorem cluster_cons_letter (switch : Switch) (letters : List Char) :
    s.cluster (switch.letter :: letters) = (s.switchOn [switch]).cluster letters := by
  cases switch <;> simp [Seen.cluster, switchOn, Switch.letter]

/-- A cluster is taken in item by item, and it waits for the next argument as `waits` tells. -/
theorem cluster_eq (letters : List Char) :
    s.cluster letters = ((letterItems letters).foldlM take s).map (·, waits letters) := by
  fun_induction letterItems letters generalizing s with
  | case1 => rfl
  | case2 => rfl
  | case3 text htext =>
    obtain ⟨c, text, rfl⟩ := List.exists_cons_of_ne_nil htext
    rfl
  | case4 letter letters _ _ switch hswitch ih =>
    obtain rfl := Switch.letter_of_ofLetter? hswitch
    rw [cluster_cons_letter, ih, waits_cons_letter]
    rfl
  | case5 letter letters _ hc hunknown => exact cluster_cons_unknown hc hunknown letters s

theorem unknown?_eq_none_of_foldlM {s s' : Seen} {letters : List Char}
    (h : (letterItems letters).foldlM take s = .ok s') : unknown? letters = none := by
  fun_induction letterItems letters generalizing s with
  | case1 => rfl
  | case2 => rfl
  | case3 text htext => rfl
  | case4 letter letters _ _ switch hswitch ih =>
    obtain rfl := Switch.letter_of_ofLetter? hswitch
    rw [unknown?_cons_letter]
    exact ih h
  | case5 letter letters _ hc hunknown => cases h

theorem foldlM_take_file (names : List String) :
    (names.map Item.file).foldlM take s = .ok { s with files := s.files ++ names } := by
  induction names generalizing s with
  | nil =>
    rw [List.append_nil]
    rfl
  | cons name names ih =>
    rw [List.map_cons, List.foldlM_cons, List.append_cons]
    exact ih _

theorem foldlM_items_cons {arg : String} {letters : List Char} (hrole : Stage.flags.role arg = .cluster letters)
    (rest : List String) :
    (Stage.flags.items (arg :: rest)).foldlM take s =
      s.cluster letters >>= fun p => ((if p.2 then Stage.code else .flags).items rest).foldlM take p.1 := by
  rw [Stage.items_cons, Stage.argItems_of_role hrole, Stage.next_of_role hrole, List.foldlM_append, cluster_eq]
  cases (letterItems letters).foldlM take s <;> rfl

/-- Arguments are taken in item by item. -/
theorem collect_eq_foldlM (args : List String) : s.collect args = (Stage.flags.items args).foldlM take s := by
  fun_induction collect s args with
  | case1 s => rfl
  | case2 s rest =>
    have hitems : Stage.flags.items ("--" :: rest) = rest.map .file := Stage.items_files rest
    rw [hitems, foldlM_take_file]
  | case3 s arg rest hdashes hflags ih =>
    simp only [Stage.items_cons, Stage.argItems, Stage.next, Stage.role_of_flags?_eq_none hdashes hflags]
    exact ih
  | case4 s arg rest hdashes letters hflags e hcluster =>
    rw [foldlM_items_cons s (Stage.role_of_flags? hdashes hflags), hcluster]
    rfl
  | case5 s arg rest hdashes letters hflags s' hcluster ih =>
    rw [foldlM_items_cons s (Stage.role_of_flags? hdashes hflags), hcluster]
    exact ih
  | case6 s arg hdashes letters hflags s' hcluster =>
    rw [foldlM_items_cons s (Stage.role_of_flags? hdashes hflags), hcluster]
    rfl
  | case7 s arg hdashes letters hflags s' hcluster text rest ih =>
    rw [foldlM_items_cons s (Stage.role_of_flags? hdashes hflags), hcluster]
    exact ih

end Seen

theorem Options.ofArgs_eq (args : List String) :
    ofArgs args = (Stage.flags.items args).foldlM Seen.take ⟨false, false, none, []⟩ >>= Seen.options := by
  rw [← Seen.collect_eq_foldlM, ofArgs]
  cases Seen.collect ⟨false, false, none, []⟩ args with
  | error e => rfl
  | ok s =>
    show (s.source >>= fun source => .ok ⟨s.dump, s.quiet, source⟩) = s.options
    rw [Seen.options]
    cases s.source <;> rfl

/-! ## Separate flags -/

namespace Stage

/-- From the stage on, the arguments ask for the items `asked` and lead to the stage `stage'`. -/
structure Asks (stage : Stage) (args : List String) (asked : List Item) (stage' : Stage) : Prop where
  read : stage.read args = asked
  after : stage.after args = stage'

namespace Asks

theorem nil (stage : Stage) : stage.Asks [] [] stage := ⟨rfl, rfl⟩

theorem append {stage stage' stage'' : Stage} {xs ys : List String} {asked asked' : List Item}
    (hx : stage.Asks xs asked stage') (hy : stage'.Asks ys asked' stage'') :
    stage.Asks (xs ++ ys) (asked ++ asked') stage'' where
  read := by rw [read_append, hx.read, hx.after, hy.read]
  after := by rw [after_append, hx.after, hy.after]

theorem arg (stage : Stage) (arg : String) : stage.Asks [arg] (stage.argItems arg) (stage.next arg) :=
  ⟨List.append_nil _, rfl⟩

theorem flag {letter : Char} (h : letter ≠ '-') :
    flags.Asks [cluster [letter]] (letterItems [letter]) (if waits [letter] then code else flags) := by
  have harg := arg flags (cluster [letter])
  rwa [argItems_of_role (role_flag h), next_of_role (role_flag h)] at harg

/-- The separate flags of a cluster ask for what the cluster asks for. -/
theorem separateLetters {letters : List Char} (h : unknown? letters ≠ some '-') :
    flags.Asks (separateLetters letters) (letterItems letters) (if waits letters then code else flags) := by
  fun_induction Command.separateLetters letters with
  | case1 => exact nil flags
  | case2 => exact flag (by decide)
  | case3 text htext =>
    obtain ⟨c, text, rfl⟩ := List.exists_cons_of_ne_nil htext
    have hc : flags.Asks [cluster ['c']] [] code := flag (by decide)
    exact hc.append (arg code (String.ofList (c :: text)))
  | case4 letter letters _ _ switch hswitch ih =>
    obtain rfl := Switch.letter_of_ofLetter? hswitch
    have hflag : flags.Asks [cluster [switch.letter]] [.switch switch] flags := by
      cases switch <;> exact flag (by decide)
    rw [unknown?_cons_letter] at h
    rw [letterItems_cons_letter, waits_cons_letter]
    exact hflag.append (ih h)
  | case5 letter letters _ hc hunknown =>
    have hdash : letter ≠ '-' := by
      rintro rfl
      exact h rfl
    have hflag := flag hdash
    rw [letterItems_cons_unknown hc hunknown, waits_cons_unknown hc hunknown] at hflag ⊢
    exact hflag

end Asks

/-- All arguments, with their clusters taken apart, are taken in as before. -/
theorem foldlM_items_separate {stage : Stage} {args : List String}
    (h : ∀ letters ∈ stage.clusters args, unknown? letters ≠ some '-') (s : Seen) :
    (stage.items (stage.separate args)).foldlM Seen.take s = (stage.items args).foldlM Seen.take s := by
  induction args generalizing stage s with
  | nil => rfl
  | cons first rest ih =>
    rw [separate, items_cons]
    cases hrole : stage.role first with
    | cluster letters =>
      obtain rfl := eq_flags_of_role hrole
      rw [clusters_cons_of_role hrole, List.forall_mem_cons] at h
      have hasks := Asks.separateLetters h.1
      rw [letters?_of_role hrole, Option.elim_some, items_append, hasks.read, hasks.after, argItems_of_role hrole,
        next_of_role hrole, List.foldlM_append, List.foldlM_append]
      cases hletters : (letterItems letters).foldlM Seen.take s with
      | error e => rfl
      | ok s' =>
        -- All letters are flags, so the clusters in `rest` are read too.
        have hrest := h.2
        rw [Seen.unknown?_eq_none_of_foldlM hletters] at hrest
        exact ih hrest s'
    | _ =>
      have hletters : stage.letters? first = none := by rw [letters?, hrole]
      rw [clusters, hletters] at h
      rw [hletters, Option.elim_none, List.singleton_append, items_cons, List.foldlM_append, List.foldlM_append]
      cases (stage.argItems first).foldlM Seen.take s with
      | error e => rfl
      | ok s' => exact ih h s'

theorem length_of_mem_clusters_separateLetters {letters : List Char} (h : unknown? letters ≠ some '-')
    {rest : List String} (hrest : unknown? letters = none →
      ∀ flag ∈ (if waits letters then code else flags).clusters rest, flag.length = 1) :
    ∀ flag ∈ flags.clusters (separateLetters letters ++ rest), flag.length = 1 := by
  fun_induction Command.separateLetters letters with
  | case1 => exact hrest rfl
  | case2 =>
    rw [List.singleton_append, clusters_cons_of_role (role_flag (by decide))]
    exact List.forall_mem_cons.2 ⟨rfl, hrest rfl⟩
  | case3 text htext =>
    obtain ⟨c, text, rfl⟩ := List.exists_cons_of_ne_nil htext
    rw [List.cons_append, clusters_cons_of_role (role_flag (by decide))]
    exact List.forall_mem_cons.2 ⟨rfl, hrest rfl⟩
  | case4 letter letters _ _ switch hswitch ih =>
    obtain rfl := Switch.letter_of_ofLetter? hswitch
    rw [unknown?_cons_letter] at h hrest
    rw [waits_cons_letter] at hrest
    have hflag : flags.clusters (cluster [switch.letter] :: (separateLetters letters ++ rest)) =
        [switch.letter] :: flags.clusters (separateLetters letters ++ rest) := by
      cases switch <;> exact clusters_cons_of_role (role_flag (by decide)) _
    rw [List.cons_append, hflag]
    exact List.forall_mem_cons.2 ⟨rfl, ih h hrest⟩
  | case5 letter letters _ hc hunknown =>
    have hdash : letter ≠ '-' := by
      rintro rfl
      exact h rfl
    rw [List.singleton_append, clusters_cons_of_role (role_flag hdash), unknown?_cons_unknown hc hunknown]
    exact List.forall_mem_cons.2 ⟨rfl, by simp⟩

/-- Clusters that were taken apart have one letter each. -/
theorem length_of_mem_clusters_separate {stage : Stage} {args : List String}
    (h : ∀ letters ∈ stage.clusters args, unknown? letters ≠ some '-') :
    ∀ flag ∈ stage.clusters (stage.separate args), flag.length = 1 := by
  induction args generalizing stage with
  | nil => simp [separate, clusters]
  | cons first rest ih =>
    rw [separate]
    cases hrole : stage.role first with
    | cluster letters =>
      obtain rfl := eq_flags_of_role hrole
      rw [clusters_cons_of_role hrole, List.forall_mem_cons] at h
      rw [letters?_of_role hrole, Option.elim_some, next_of_role hrole]
      refine length_of_mem_clusters_separateLetters h.1 fun hknown => ih ?_
      simpa [hknown] using h.2
    | _ =>
      have hletters : stage.letters? first = none := by rw [letters?, hrole]
      rw [clusters, hletters] at h
      rw [hletters, Option.elim_none, List.singleton_append, clusters, hletters]
      exact ih h

end Stage

/-! ## More switches -/

namespace Seen

variable (s : Seen) (switches : List Switch)

/-- Switches are no matter for what else is taken in. -/
theorem take_switchOn (item : Item) :
    (s.switchOn switches).take item = (s.take item).map (·.switchOn switches) := by
  cases item with
  | switch switch => simp [take, switchOn, Except.map, Bool.or_right_comm]
  | _ => rfl

theorem foldlM_take_switchOn (items : List Item) :
    items.foldlM take (s.switchOn switches) = (items.foldlM take s).map (·.switchOn switches) := by
  induction items generalizing s with
  | nil => rfl
  | cons item items ih =>
    rw [List.foldlM_cons, List.foldlM_cons, take_switchOn]
    cases s.take item with
    | error e => rfl
    | ok s' => exact ih s'

theorem foldlM_take_switch : (switches.map Item.switch).foldlM take s = .ok (s.switchOn switches) := by
  induction switches generalizing s with
  | nil => simp [switchOn, pure, Except.pure]
  | cons switch switches ih =>
    rw [List.map_cons, List.foldlM_cons]
    refine (ih _).trans ?_
    cases switch <;> simp [switchOn]

theorem options_switchOn : (s.switchOn switches).options = s.options.map (·.switchOn switches) := by
  have hsource : (s.switchOn switches).source = s.source := rfl
  rw [options, options, hsource]
  cases s.source <;> rfl

/-- Switches in front of other items are added to the options that these give. -/
theorem options_of_switches (items : List Item) :
    ((switches.map Item.switch ++ items).foldlM take s >>= options) =
      (items.foldlM take s >>= options).map (·.switchOn switches) := by
  rw [List.foldlM_append, foldlM_take_switch]
  show (items.foldlM take (s.switchOn switches) >>= options) = _
  rw [foldlM_take_switchOn]
  cases items.foldlM take s with
  | error e => rfl
  | ok s' => exact s'.options_switchOn switches

end Seen

/-- A cluster of switches is read as such wherever a flag is. -/
theorem Stage.items_insert {before : List String} (h : flags.after before = flags) (after : List String)
    {switches : List Switch} (hswitches : switches ≠ []) :
    flags.items (before ++ cluster (switches.map Switch.letter) :: after) =
      flags.read before ++ (switches.map .switch ++ flags.items after) := by
  have hrole : flags.role (cluster (switches.map Switch.letter)) = .cluster (switches.map Switch.letter) := by
    apply role_cluster
    · simpa using hswitches
    · intro hdash
      have hmem : '-' ∈ switches.map Switch.letter := by simp [hdash]
      obtain ⟨switch, -, hletter⟩ := List.mem_map.1 hmem
      cases switch <;> cases hletter
  rw [items_append, h, items_cons, argItems_of_role hrole, next_of_role hrole, letterItems_map_letter,
    waits_map_letter]
  rfl

/-- Clusters may be written as separate flags, if none has a dash for its first letter that is no flag: the options
are the same, or what is wrong is. And switches may be put in or left out wherever a flag is read, with no effect but
their own. -/
theorem clusters_mean_separate_flags (args : List String) :
    ((∀ letters ∈ clusters args, unknown? letters ≠ some '-') →
      Options.ofArgs (separate args) = Options.ofArgs args ∧
        ∀ letters ∈ clusters (separate args), letters.length = 1) ∧
    ∀ (before after : List String) (switches : List Switch), Stage.flags.after before = .flags → switches ≠ [] →
      Options.ofArgs (before ++ cluster (switches.map Switch.letter) :: after) =
        (Options.ofArgs (before ++ after)).map (·.switchOn switches) := by
  refine ⟨fun hdash => ?_, fun before after switches hbefore hswitches => ?_⟩
  · rw [Options.ofArgs_eq, separate, Stage.foldlM_items_separate hdash, ← Options.ofArgs_eq]
    exact ⟨rfl, Stage.length_of_mem_clusters_separate hdash⟩
  · rw [Options.ofArgs_eq, Options.ofArgs_eq, Stage.items_insert hbefore after hswitches, Stage.items_append, hbefore,
      List.foldlM_append, List.foldlM_append, bind_assoc, bind_assoc]
    cases (Stage.flags.read before).foldlM Seen.take ⟨false, false, none, []⟩ with
    | error e => rfl
    | ok s => exact s.options_of_switches switches (Stage.flags.items after)

/-- The program of the first cluster is two dashes and that of the second is the next argument, which looks like a
flag. A third cluster has a letter that is no flag, so the last is not read. -/
theorem clusters_mean_separate_flags_unknown :
    (separate ["-qc--", "-dc", "-z"] = ["-q", "-c", "--", "-d", "-c", "-z"] ∧
      Options.ofArgs ["-q", "-c", "--", "-d", "-c", "-z"] = Options.ofArgs ["-qc--", "-dc", "-z"] ∧
      Options.ofArgs ["-qc--", "-dc", "-z"] = .ok ⟨true, true, .code "-z"⟩) ∧
    (separate ["-qc--", "-dc", "-z", "-dx-", "-d-"] = ["-q", "-c", "--", "-d", "-c", "-z", "-d", "-x", "-d", "--"] ∧
      Options.ofArgs ["-q", "-c", "--", "-d", "-c", "-z", "-d", "-x", "-d", "--"] =
        Options.ofArgs ["-qc--", "-dc", "-z", "-dx-", "-d-"] ∧
      Options.ofArgs ["-qc--", "-dc", "-z", "-dx-", "-d-"] = .error (.unknownOption 'x')) ∧
    Options.ofArgs ["-c", "--", "-qd", "--"] =
      (Options.ofArgs ["-c", "--", "--"]).map (·.switchOn [.quiet, .dump]) ∧
    Options.ofArgs ["-c", "--", "--"] = .ok ⟨false, false, .code "--"⟩ ∧
    Options.ofArgs ["-c", "--", "-qd", "--"] = .ok ⟨true, true, .code "--"⟩ := by
  have hknown : separate ["-qc--", "-dc", "-z"] = ["-q", "-c", "--", "-d", "-c", "-z"] := by decide +kernel
  have hunknown : separate ["-qc--", "-dc", "-z", "-dx-", "-d-"] =
      ["-q", "-c", "--", "-d", "-c", "-z", "-d", "-x", "-d", "--"] := by decide +kernel
  refine ⟨⟨hknown, ?_, rfl⟩, ⟨hunknown, ?_, rfl⟩, ?_, rfl, rfl⟩
  · rw [← hknown]
    exact ((clusters_mean_separate_flags _).1 (by decide +kernel)).1
  · rw [← hunknown]
    exact ((clusters_mean_separate_flags _).1 (by decide +kernel)).1
  · exact (clusters_mean_separate_flags []).2 ["-c", "--"] ["--"] [.quiet, .dump] (by decide +kernel) (by decide)

/-- A dash that is no flag would be written as the end of the flags. -/
example : Options.ofArgs ["-d-", "a"] = .error (.unknownOption '-') ∧
    Options.ofArgs (separate ["-d-", "a"]) = .ok ⟨true, false, .file "a"⟩ := ⟨rfl, rfl⟩

end RangeScript.Command
