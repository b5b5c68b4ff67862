import DevPilot.Coordinator.TreeShape
import DevPilot.Sdk.LegacyImport

/-!
What a failed import leaves behind, and when running it again until it succeeds gives
what one run without failures gives.
-/

namespace DevPilot.Sdk

open PyJson Runs

variable {F : Type} {host : SdkHost F} {fallbackModel : String} {d d' d'' : Disk F}
  {path taskId : String}

namespace Disk

def makes (path taskId : String) : ImportEffect F → Bool
  | .makeDirectory p t => p = path ∧ t = taskId
  | _ => false

theorem length_stemming_fill (d : Disk F) (p : String) (n : Nat)
    (record : Session F → Option (ConversationRecord F))
    (transcript : Session F → List (ConversationMessage F)) :
    ((d.fill p n record transcript).stemming path taskId).length =
      (d.stemming path taskId).length := by
  simp only [stemming, fill, Function.update_apply]
  split_ifs with hp
  · rw [hp, List.filter_map, List.length_map]
    congr 2
    funext s
    simp only [Function.comp_apply]
    split_ifs <;> rfl
  · rfl

theorem length_stemming_apply (d : Disk F) (e : ImportEffect F) :
    ((d.apply host e).stemming path taskId).length =
      (d.stemming path taskId).length + if makes path taskId e then 1 else 0 := by
  cases e with
  | openProject p => rfl
  | makeDirectory p t =>
      simp only [apply, stemming, makeDirectory, Function.update_apply, makes]
      by_cases hp : path = p
      · subst hp
        by_cases ht : t = taskId <;> simp [List.filter_append, ht]
      · simp [hp, Ne.symm hp]
  | writeRecord p n record => exact length_stemming_fill d p n _ _
  | appendMessage p n message => exact length_stemming_fill d p n _ _
  | writeMarker p taskMap =>
      simp only [apply, stemming, writeMarker, Function.update_apply, makes]
      by_cases hp : path = p <;> simp [hp]

theorem length_stemming_applyAll (d : Disk F) (es : List (ImportEffect F)) :
    ((d.applyAll host es).stemming path taskId).length =
      (d.stemming path taskId).length + es.countP (makes path taskId) := by
  induction es generalizing d with
  | nil => rfl
  | cons e es ih =>
      rw [applyAll_cons, ih, length_stemming_apply, List.countP_cons]
      omega

def isMarker : ImportEffect F → Bool
  | .writeMarker _ _ => true
  | _ => false

theorem taskMap_congr (h : (d'.folder path).marker = (d.folder path).marker) :
    d'.taskMap path = d.taskMap path := by
  rw [taskMap, h]
  rfl

theorem marker_applyAll {es : List (ImportEffect F)} (h : ∀ e ∈ es, isMarker e = false)
    (d : Disk F) (path : String) :
    ((d.applyAll host es).folder path).marker = (d.folder path).marker := by
  induction es generalizing d with
  | nil => rfl
  | cons e es ih =>
      rw [applyAll_cons, ih fun e he => h e (List.mem_cons_of_mem _ he)]
      have he := h e List.mem_cons_self
      cases e with
      | openProject p => rfl
      | writeMarker p taskMap => cases he
      | _ =>
          simp only [apply, makeDirectory, fill, Function.update_apply]
          split_ifs with hp
          · rw [hp]
          · rfl

end Disk

theorem isMapped_insert (taskMap : Members F) (id taskId : String) (n : Nat) :
    isMapped (Members.insert id (.str (conversationId host n)) taskMap) taskId =
      (decide (id = taskId) || isMapped taskMap taskId) := by
  rw [isMapped]
  by_cases h : taskId = id
  · subst h
    simp [Members.lookup_insert_self, Json.str?, conversationId]
  · rw [Members.lookup_insert_ne h]
    simp [isMapped, Ne.symm h]

theorem isMapped_tasksEffects (host : SdkHost F) (fallbackModel path taskId : String)
    (taskMap : Members F) (n : Nat) (tasks : List (LegacyTask F)) :
    isMapped (tasksEffects host fallbackModel path taskMap n tasks).2 taskId =
      (isMapped taskMap taskId || tasks.any (·.id = taskId)) := by
  induction tasks generalizing taskMap n with
  | nil => simp [tasksEffects]
  | cons task tasks ih =>
      rw [tasksEffects]
      split_ifs with hmapped
      · rw [ih, List.any_cons]
        by_cases hid : task.id = taskId
        · simp [← hid, hmapped]
        · simp [hid]
      · rw [ih, isMapped_insert, List.any_cons]
        cases decide (task.id = taskId) <;> simp

theorem mem_tasksEffects (host : SdkHost F) (fallbackModel path : String) (taskMap : Members F)
    (n : Nat) (tasks : List (LegacyTask F)) :
    (∀ e ∈ (tasksEffects host fallbackModel path taskMap n tasks).1, Disk.isMarker e = false) ∧
    ∀ p t, .makeDirectory p t ∈ (tasksEffects host fallbackModel path taskMap n tasks).1 ↔
      p = path ∧ isMapped taskMap t = false ∧ tasks.any (·.id = t) = true := by
  induction tasks generalizing taskMap n with
  | nil => simp [tasksEffects]
  | cons task tasks ih =>
      rw [tasksEffects]
      split_ifs with hmapped
      · refine ⟨(ih taskMap n).1, fun p t => ((ih taskMap n).2 p t).trans ?_⟩
        rw [List.any_cons]
        by_cases hid : task.id = t
        · simp [← hid, hmapped]
        · simp [hid]
      · obtain ⟨hmarkers, hmakes⟩ := ih (Members.insert task.id (.str (conversationId host n)) taskMap)
          (n + 1)
        constructor
        · intro e he
          rcases List.mem_append.mp he with he | he
          · simp only [taskEffects, List.mem_cons, List.mem_map] at he
            rcases he with rfl | rfl | ⟨m, -, rfl⟩ <;> rfl
          · exact hmarkers e he
        · intro p t
          rw [List.mem_append, hmakes, isMapped_insert, List.any_cons]
          simp only [taskEffects, List.mem_cons, ImportEffect.makeDirectory.injEq, List.mem_map,
            reduceCtorEq, and_false, exists_false, or_false]
          by_cases hid : task.id = t
          · subst hid
            simp [hmapped]
          · simp [hid, Ne.symm hid]

def Adds (host : SdkHost F) (fallbackModel : String) (d d' : Disk F) (path taskId : String)
    (task : Option (LegacyTask F)) : Prop :=
  match task with
  | none => d'.stemming path taskId = d.stemming path taskId
  | some task => ∃ n, d'.stemming path taskId =
      d.stemming path taskId ++ [legacySession host fallbackModel path n task]

theorem Adds.trans {first second : Option (LegacyTask F)}
    (h : Adds host fallbackModel d d' path taskId first)
    (h' : Adds host fallbackModel d' d'' path taskId second)
    (hone : first = none ∨ second = none) :
    Adds host fallbackModel d d'' path taskId (first.or second) := by
  rcases hone with rfl | rfl
  · cases second with
    | none => exact Eq.trans h' h
    | some task =>
        obtain ⟨n, hn⟩ := h'
        exact ⟨n, hn.trans (congrArg (· ++ _) h)⟩
  · cases first with
    | none => exact Eq.trans h' h
    | some task =>
        obtain ⟨n, hn⟩ := h
        exact ⟨n, Eq.trans h' hn⟩

theorem Adds.congr {task : Option (LegacyTask F)}
    (h : Adds host fallbackModel d d' path taskId task)
    (hd : d''.stemming path taskId = d'.stemming path taskId) :
    Adds host fallbackModel d d'' path taskId task := by
  cases task with
  | none => exact hd.trans h
  | some task => exact h.imp fun n hn => hd.trans hn

theorem adds_taskEffects (d : Disk F) (path taskId : String) (task : LegacyTask F) :
    Adds host fallbackModel d (d.applyAll host (taskEffects host fallbackModel path d.drawn task))
      path taskId (if task.id = taskId then some task else none) := by
  obtain ⟨hfolder, -⟩ := Disk.folder_taskEffects host fallbackModel d path task
  split_ifs with hid
  · refine ⟨d.drawn, ?_⟩
    rw [Disk.stemming, hfolder, Function.update_self, List.filter_append]
    simp [Disk.stemming, legacySession, hid]
  · rw [Adds, Disk.stemming, hfolder, Function.update_self, List.filter_append]
    simp [Disk.stemming, legacySession, hid]

theorem adds_tasksEffects (d : Disk F) (path taskId : String) (taskMap : Members F)
    (tasks : List (LegacyTask F)) : Adds host fallbackModel d
      (d.applyAll host (tasksEffects host fallbackModel path taskMap d.drawn tasks).1) path taskId
      (if isMapped taskMap taskId then none else tasks.find? (·.id = taskId)) := by
  induction tasks generalizing d taskMap with
  | nil => simp [tasksEffects, Adds]
  | cons task tasks ih =>
      rw [tasksEffects, List.find?_cons]
      by_cases htask : isMapped taskMap task.id = true
      · rw [if_pos htask]
        by_cases hid : task.id = taskId
        · simpa [← hid, htask] using ih d taskMap
        · simpa [hid] using ih d taskMap
      · rw [if_neg htask, Disk.applyAll_append]
        obtain ⟨-, hdrawn⟩ := Disk.folder_taskEffects host fallbackModel d path task
        have hrest := ih (d.applyAll host (taskEffects host fallbackModel path d.drawn task))
          (Members.insert task.id (.str (conversationId host d.drawn)) taskMap)
        rw [hdrawn, isMapped_insert] at hrest
        have htrans := (adds_taskEffects d path taskId task).trans hrest (by
          by_cases hid : task.id = taskId <;> simp [hid])
        by_cases hid : task.id = taskId
        · subst hid
          simpa [htask] using htrans
        · simpa [hid] using htrans

theorem folder_tasksEffects (d : Disk F) {p : String} (hp : p ≠ path) (taskMap : Members F)
    (tasks : List (LegacyTask F)) :
    (d.applyAll host (tasksEffects host fallbackModel path taskMap d.drawn tasks).1).folder p =
      d.folder p := by
  induction tasks generalizing d taskMap with
  | nil => simp [tasksEffects]
  | cons task tasks ih =>
      rw [tasksEffects]
      split_ifs
      · exact ih d taskMap
      · obtain ⟨hfolder, hdrawn⟩ := Disk.folder_taskEffects host fallbackModel d path task
        have hrest := ih (d.applyAll host (taskEffects host fallbackModel path d.drawn task))
          (Members.insert task.id (.str (conversationId host d.drawn)) taskMap)
        rw [hdrawn] at hrest
        rw [Disk.applyAll_append, hrest, hfolder, Function.update_of_ne hp]

def LegacyProject.task (project : LegacyProject F) (path taskId : String) :
    Option (LegacyTask F) :=
  if project.path = path then project.tasks.find? (·.id = taskId) else none

theorem firstTask_cons (project : LegacyProject F) (projects : List (LegacyProject F))
    (path taskId : String) : firstTask (project :: projects) path taskId =
      (project.task path taskId).or (firstTask projects path taskId) := by
  rw [firstTask, LegacyProject.task, List.filter_cons]
  by_cases hpath : project.path = path
  · simp only [hpath, decide_true, if_true, List.findSome?_cons]
    cases project.tasks.find? (·.id = taskId) <;> rfl
  · simp [hpath, firstTask]

structure Imports (host : SdkHost F) (fallbackModel : String) (d d' : Disk F)
    (path taskId : String) (task : Option (LegacyTask F)) : Prop where
  adds : Adds host fallbackModel d d' path taskId
    (if isMapped (d.taskMap path) taskId then none else task)
  maps : isMapped (d'.taskMap path) taskId = (isMapped (d.taskMap path) taskId || task.isSome)

theorem Imports.trans {first second : Option (LegacyTask F)}
    (h : Imports host fallbackModel d d' path taskId first)
    (h' : Imports host fallbackModel d' d'' path taskId second) :
    Imports host fallbackModel d d'' path taskId (first.or second) := by
  obtain ⟨hadds, hmaps⟩ := h
  obtain ⟨hadds', hmaps'⟩ := h'
  rw [hmaps] at hadds' hmaps'
  constructor
  · have htrans := hadds.trans hadds' (by
      cases first <;> cases isMapped (d.taskMap path) taskId <;> simp)
    cases hmapped : isMapped (d.taskMap path) taskId <;> rw [hmapped] at htrans <;>
      cases first <;> simpa using htrans
  · rw [hmaps']
    cases first <;> cases isMapped (d.taskMap path) taskId <;> simp

theorem tasksEffects_of_nil {taskMap : Members F} {n : Nat} {tasks : List (LegacyTask F)}
    (h : (tasksEffects host fallbackModel path taskMap n tasks).1 = []) :
    (tasksEffects host fallbackModel path taskMap n tasks).2 = taskMap := by
  induction tasks with
  | nil => rfl
  | cons task tasks ih =>
      rw [tasksEffects] at h ⊢
      split_ifs at h ⊢ with hmapped
      · exact ih h
      · cases h

theorem taskMap_writeMarker (d : Disk F) (p : String) (taskMap : Members F) (path : String) :
    (d.writeMarker host p taskMap).taskMap path = if path = p then taskMap else d.taskMap path := by
  simp only [Disk.taskMap, Disk.writeMarker, Function.update_apply]
  split_ifs
  · simp [Members.lookup_cons]
  · rfl

theorem stemming_writeMarker (d : Disk F) (p : String) (taskMap : Members F)
    (path taskId : String) :
    (d.writeMarker host p taskMap).stemming path taskId = d.stemming path taskId := by
  simp only [Disk.stemming, Disk.writeMarker, Function.update_apply]
  split_ifs with hp
  · rw [hp]
  · rfl

theorem applyAll_projectEffects (host : SdkHost F) (fallbackModel : String) (d : Disk F)
    (project : LegacyProject F) (path taskId : String) :
    (d.applyAll host (projectEffects host fallbackModel d project)).stemming path taskId =
      (d.applyAll host (tasksEffects host fallbackModel project.path (d.taskMap project.path)
        d.drawn project.tasks).1).stemming path taskId ∧
    (d.applyAll host (projectEffects host fallbackModel d project)).taskMap path =
      if path = project.path then (tasksEffects host fallbackModel project.path
        (d.taskMap project.path) d.drawn project.tasks).2 else d.taskMap path := by
  have hmarkers := (mem_tasksEffects host fallbackModel project.path (d.taskMap project.path)
    d.drawn project.tasks).1
  rw [projectEffects, List.cons_append, Disk.applyAll_cons, Disk.applyAll_append]
  split_ifs with hwritten hpath hpath
  · refine ⟨stemming_writeMarker _ _ _ path taskId, ?_⟩
    exact (taskMap_writeMarker _ _ _ path).trans (if_pos hpath)
  · refine ⟨stemming_writeMarker _ _ _ path taskId, ?_⟩
    refine (taskMap_writeMarker _ _ _ path).trans ((if_neg hpath).trans ?_)
    exact Disk.taskMap_congr (Disk.marker_applyAll hmarkers d path)
  · refine ⟨rfl, ?_⟩
    simp only [Bool.or_eq_true, not_or, Bool.not_eq_true, Bool.not_eq_false',
      List.isEmpty_iff] at hwritten
    rw [tasksEffects_of_nil hwritten.1, hwritten.1, hpath]
    rfl
  · exact ⟨rfl, Disk.taskMap_congr (Disk.marker_applyAll hmarkers d path)⟩

theorem imports_projectEffects (d : Disk F) (project : LegacyProject F) (path taskId : String) :
    Imports host fallbackModel d
      (d.applyAll host (projectEffects host fallbackModel d project)) path taskId
      (project.task path taskId) := by
  obtain ⟨hstemming, hmap⟩ := applyAll_projectEffects host fallbackModel d project
    path taskId
  by_cases hpath : path = project.path
  · subst hpath
    have htask : project.task project.path taskId = project.tasks.find? (·.id = taskId) :=
      if_pos rfl
    rw [htask]
    constructor
    · exact (adds_tasksEffects d project.path taskId (d.taskMap project.path)
        project.tasks).congr hstemming
    · rw [hmap, if_pos rfl, isMapped_tasksEffects, List.isSome_find?]
  · have htask : project.task path taskId = none := if_neg (Ne.symm hpath)
    rw [htask]
    constructor
    · rw [ite_self]
      refine hstemming.trans ?_
      rw [Disk.stemming, folder_tasksEffects d hpath]
      rfl
    · rw [hmap, if_neg hpath, Option.isSome_none, Bool.or_false]

theorem imports_importEffects (host : SdkHost F) (fallbackModel : String) (d : Disk F)
    (projects : List (LegacyProject F)) (path taskId : String) :
    Imports host fallbackModel d (succeed host fallbackModel projects d) path taskId
      (firstTask projects path taskId) := by
  induction projects generalizing d with
  | nil =>
      refine ⟨?_, ?_⟩
      · rw [firstTask, List.filter_nil, List.findSome?_nil, ite_self]
        rfl
      · rw [firstTask, List.filter_nil, List.findSome?_nil, Option.isSome_none, Bool.or_false]
        rfl
  | cons project projects ih =>
      rw [firstTask_cons, succeed, importEffects, Disk.applyAll_append]
      exact (imports_projectEffects d project path taskId).trans (ih _)

theorem settled_append {es : List (ImportEffect F)} (h : settled es = true)
    (es' : List (ImportEffect F)) : settled (es ++ es') = settled es' := by
  rw [settled] at h
  rw [settled, List.foldl_append, h, settled]

theorem settled_iff_of_noMarker {es : List (ImportEffect F)}
    (h : ∀ e ∈ es, Disk.isMarker e = false) :
    settled es = true ↔ ∀ p t, .makeDirectory p t ∉ es := by
  have hfrom : ∀ s, es.foldl settling s = true ↔ s = true ∧ ∀ p t, .makeDirectory p t ∉ es := by
    induction es with
    | nil => simp
    | cons e es ih =>
        intro s
        rw [List.foldl_cons, ih (fun e he => h e (List.mem_cons_of_mem _ he))]
        have he := h e List.mem_cons_self
        cases e with
        | writeMarker p taskMap => cases he
        | makeDirectory p t =>
            refine iff_of_false (fun hs => Bool.false_ne_true hs.1) fun hs => ?_
            exact hs.2 p t List.mem_cons_self
        | _ => simp [settling]
  rw [settled, hfrom]
  simp

theorem tail_projectEffects (host : SdkHost F) (fallbackModel : String) (d : Disk F)
    (project : LegacyProject F) :
    (∃ taskMap, projectEffects host fallbackModel d project = .openProject project.path ::
      (tasksEffects host fallbackModel project.path (d.taskMap project.path) d.drawn
        project.tasks).1 ++ [ImportEffect.writeMarker project.path taskMap]) ∨
    projectEffects host fallbackModel d project = [.openProject project.path] := by
  rw [projectEffects]
  split_ifs with hwritten
  · exact .inl ⟨_, rfl⟩
  · right
    simp only [Bool.or_eq_true, not_or, Bool.not_eq_true, Bool.not_eq_false',
      List.isEmpty_iff] at hwritten
    rw [hwritten.1]
    rfl

theorem settled_projectEffects (d : Disk F) (project : LegacyProject F) :
    settled (projectEffects host fallbackModel d project) = true := by
  obtain ⟨taskMap, h⟩ | h := tail_projectEffects host fallbackModel d project
  · rw [h, settled, List.foldl_append]
    rfl
  · rw [h]
    rfl

theorem mem_take_projectEffects {project : LegacyProject F} {k : Nat}
    (hk : k < (projectEffects host fallbackModel d project).length) :
    ∃ j, (projectEffects host fallbackModel d project).take k = [] ∨
      (projectEffects host fallbackModel d project).take k = .openProject project.path ::
        ((tasksEffects host fallbackModel project.path (d.taskMap project.path) d.drawn
          project.tasks).1.take j) := by
  cases k with
  | zero => exact ⟨0, .inl rfl⟩
  | succ k =>
      obtain ⟨taskMap, h⟩ | h := tail_projectEffects host fallbackModel d project
      · rw [h] at hk ⊢
        refine ⟨k, .inr ?_⟩
        rw [List.length_append, List.length_cons, List.length_singleton] at hk
        rw [List.take_append_of_le_length (by simpa using Nat.lt_succ_iff.mp hk), List.take_succ_cons]
      · rw [h] at hk
        simp at hk

theorem tasksEffects_head (host : SdkHost F) (fallbackModel path : String) (taskMap : Members F)
    (n : Nat) (tasks : List (LegacyTask F)) :
    (tasksEffects host fallbackModel path taskMap n tasks).1 = [] ∨
      ∃ p t es, (tasksEffects host fallbackModel path taskMap n tasks).1 =
        .makeDirectory p t :: es := by
  induction tasks with
  | nil => exact .inl rfl
  | cons task tasks ih =>
      rw [tasksEffects]
      split_ifs
      · exact ih
      · exact .inr ⟨_, _, _, rfl⟩

theorem unfinished {project : LegacyProject F} {k : Nat}
    (hk : k < (projectEffects host fallbackModel d project).length) :
    (∀ e ∈ (projectEffects host fallbackModel d project).take k, Disk.isMarker e = false) ∧
    (∀ p t, .makeDirectory p t ∈ (projectEffects host fallbackModel d project).take k →
      isMapped (d.taskMap p) t = false ∧ (project.task p t).isSome) ∧
    (settled ((projectEffects host fallbackModel d project).take k) = true →
      d.applyAll host ((projectEffects host fallbackModel d project).take k) = d) := by
  obtain ⟨j, h | h⟩ := mem_take_projectEffects hk
  · rw [h]
    exact ⟨by simp, by simp, fun _ => rfl⟩
  · obtain ⟨hmarkers, hmakes⟩ := mem_tasksEffects host fallbackModel project.path
      (d.taskMap project.path) d.drawn project.tasks
    have hnone : ∀ e ∈ (projectEffects host fallbackModel d project).take k,
        Disk.isMarker e = false := by
      intro e he
      rw [h] at he
      rcases List.mem_cons.mp he with rfl | he
      · rfl
      · exact hmarkers e (List.mem_of_mem_take he)
    refine ⟨hnone, ?_, ?_⟩
    · intro p t hmem
      rw [h, List.mem_cons] at hmem
      obtain ⟨rfl, hmapped, hany⟩ := (hmakes p t).mp
        (List.mem_of_mem_take (hmem.resolve_left (by simp)))
      refine ⟨hmapped, ?_⟩
      rw [LegacyProject.task, if_pos rfl, List.isSome_find?]
      exact hany
    · intro hsettled
      have hmakesNone := (settled_iff_of_noMarker hnone).mp hsettled
      rw [h] at hmakesNone ⊢
      have htake : (tasksEffects host fallbackModel project.path (d.taskMap project.path) d.drawn
          project.tasks).1.take j = [] := by
        obtain hnil | ⟨p, t, es, hes⟩ := tasksEffects_head host fallbackModel project.path
          (d.taskMap project.path) d.drawn project.tasks
        · rw [hnil, List.take_nil]
        · rw [hes] at hmakesNone ⊢
          cases j with
          | zero => rfl
          | succ j => exact absurd (by simp) (hmakesNone p t)
      rw [htake]
      rfl

theorem attempt_cons (project : LegacyProject F) (projects : List (LegacyProject F)) (d : Disk F)
    {k : Nat} (hk : (projectEffects host fallbackModel d project).length ≤ k) :
    (importEffects host fallbackModel d (project :: projects)).take k =
      projectEffects host fallbackModel d project ++ (importEffects host fallbackModel
        (d.applyAll host (projectEffects host fallbackModel d project)) projects).take
          (k - (projectEffects host fallbackModel d project).length) ∧
    attempt host fallbackModel (project :: projects) d k = attempt host fallbackModel projects
      (d.applyAll host (projectEffects host fallbackModel d project))
      (k - (projectEffects host fallbackModel d project).length) := by
  have htake : (importEffects host fallbackModel d (project :: projects)).take k =
      projectEffects host fallbackModel d project ++ (importEffects host fallbackModel
        (d.applyAll host (projectEffects host fallbackModel d project)) projects).take
          (k - (projectEffects host fallbackModel d project).length) := by
    rw [importEffects, List.take_append, List.take_of_length_le hk]
  exact ⟨htake, by rw [attempt, htake, Disk.applyAll_append, attempt]⟩

theorem attempt_unfinished (project : LegacyProject F) (projects : List (LegacyProject F))
    {d : Disk F} {k : Nat} (hk : k < (projectEffects host fallbackModel d project).length) :
    (importEffects host fallbackModel d (project :: projects)).take k =
      (projectEffects host fallbackModel d project).take k ∧
    attempt host fallbackModel (project :: projects) d k =
      d.applyAll host ((projectEffects host fallbackModel d project).take k) := by
  have htake : (importEffects host fallbackModel d (project :: projects)).take k =
      (projectEffects host fallbackModel d project).take k := by
    rw [importEffects, List.take_append_of_le_length hk.le]
  exact ⟨htake, by rw [attempt, htake]⟩

theorem mapped_attempt {projects : List (LegacyProject F)} {k : Nat}
    (h : isMapped ((attempt host fallbackModel projects d k).taskMap path) taskId = true) :
    isMapped (d.taskMap path) taskId = true ∨
      .makeDirectory path taskId ∈ (importEffects host fallbackModel d projects).take k := by
  induction projects generalizing d k with
  | nil =>
      rw [attempt, importEffects, List.take_nil] at h
      exact .inl h
  | cons project projects ih =>
      by_cases hk : k < (projectEffects host fallbackModel d project).length
      · obtain ⟨-, hattempt⟩ := attempt_unfinished project projects hk
        rw [hattempt, Disk.taskMap_congr (Disk.marker_applyAll (unfinished hk).1 d path)] at h
        exact .inl h
      · obtain ⟨htake, hattempt⟩ := attempt_cons project projects d (not_lt.mp hk)
        rw [hattempt] at h
        rw [htake, List.mem_append]
        rcases ih h with hmapped | hmade
        · rw [(imports_projectEffects d project path taskId).maps, Bool.or_eq_true] at hmapped
          refine or_iff_not_imp_left.mpr fun hnot => .inl ?_
          have hsome := hmapped.resolve_left hnot
          rw [LegacyProject.task] at hsome
          split_ifs at hsome with hpath
          · rw [List.isSome_find?] at hsome
            subst hpath
            rw [projectEffects]
            apply List.mem_append_left
            apply List.mem_cons_of_mem
            exact ((mem_tasksEffects host fallbackModel project.path _ _ _).2 _ _).mpr
              ⟨rfl, by simpa using hnot, hsome⟩
          · cases hsome
        · exact .inr (.inr hmade)

theorem unsettled_attempt {projects : List (LegacyProject F)} {k : Nat}
    (h : settled ((importEffects host fallbackModel d projects).take k) = false) :
    ∃ path taskId,
      .makeDirectory path taskId ∈ (importEffects host fallbackModel d projects).take k ∧
      isMapped ((attempt host fallbackModel projects d k).taskMap path) taskId = false ∧
      (firstTask projects path taskId).isSome := by
  induction projects generalizing d k with
  | nil =>
      rw [importEffects, List.take_nil] at h
      cases h
  | cons project projects ih =>
      by_cases hk : k < (projectEffects host fallbackModel d project).length
      · obtain ⟨htake, hattempt⟩ := attempt_unfinished project projects hk
        obtain ⟨hmarkers, hmakes, -⟩ := unfinished hk
        rw [htake] at h ⊢
        rw [hattempt]
        have hmade := mt (settled_iff_of_noMarker hmarkers).mpr (by simp [h])
        push Not at hmade
        obtain ⟨p, t, hmem⟩ := hmade
        obtain ⟨hmapped, hsome⟩ := hmakes p t hmem
        refine ⟨p, t, hmem, ?_, ?_⟩
        · rw [Disk.taskMap_congr (Disk.marker_applyAll hmarkers d p), hmapped]
        · rw [firstTask_cons, Option.isSome_or, hsome, Bool.true_or]
      · obtain ⟨htake, hattempt⟩ := attempt_cons project projects d (not_lt.mp hk)
        rw [htake, settled_append (settled_projectEffects d project)] at h
        obtain ⟨p, t, hmem, hmapped, hsome⟩ := ih h
        refine ⟨p, t, ?_, ?_, ?_⟩
        · rw [htake]
          exact List.mem_append_right _ hmem
        · rw [hattempt, hmapped]
        · rw [firstTask_cons, Option.isSome_or, hsome, Bool.or_true]

theorem settled_attempt {projects : List (LegacyProject F)} {k : Nat}
    (h : settled ((importEffects host fallbackModel d projects).take k) = true) :
    ∃ j, attempt host fallbackModel projects d k =
      succeed host fallbackModel (projects.take j) d := by
  induction projects generalizing d k with
  | nil => exact ⟨0, by rw [attempt, importEffects, List.take_nil]; rfl⟩
  | cons project projects ih =>
      by_cases hk : k < (projectEffects host fallbackModel d project).length
      · obtain ⟨htake, hattempt⟩ := attempt_unfinished project projects hk
        rw [htake] at h
        exact ⟨0, hattempt.trans ((unfinished hk).2.2 h)⟩
      · obtain ⟨htake, hattempt⟩ := attempt_cons project projects d (not_lt.mp hk)
        rw [htake, settled_append (settled_projectEffects d project)] at h
        obtain ⟨j, hj⟩ := ih h
        refine ⟨j + 1, ?_⟩
        rw [hattempt, hj, List.take_succ_cons, succeed, succeed, importEffects,
          Disk.applyAll_append]

/-- Every task that is mapped has its one conversation, and no other task has any. -/
structure Sound (host : SdkHost F) (fallbackModel : String) (projects : List (LegacyProject F))
    (d : Disk F) : Prop where
  unmapped : ∀ path taskId, isMapped (d.taskMap path) taskId = false →
    d.stemming path taskId = []
  mapped : ∀ path taskId, isMapped (d.taskMap path) taskId = true →
    ∃ task n, firstTask projects path taskId = some task ∧
      d.stemming path taskId = [legacySession host fallbackModel path n task]

def Spoiled (projects : List (LegacyProject F)) (d : Disk F) : Prop :=
  ∃ path taskId, (firstTask projects path taskId).isSome ∧
    1 ≤ (d.stemming path taskId).length ∧
    (isMapped (d.taskMap path) taskId = true → 2 ≤ (d.stemming path taskId).length)

variable {projects : List (LegacyProject F)}

theorem firstTask_take {j : Nat} {task : LegacyTask F}
    (h : firstTask (projects.take j) path taskId = some task) :
    firstTask projects path taskId = some task := by
  induction projects generalizing j with
  | nil => rwa [List.take_nil] at h
  | cons project projects ih =>
      cases j with
      | zero => simp [firstTask] at h
      | succ j =>
          rw [List.take_succ_cons, firstTask_cons] at h
          rw [firstTask_cons]
          cases hp : project.task path taskId with
          | some first => simpa [hp] using h
          | none =>
              rw [hp, Option.none_or] at h
              rw [Option.none_or, ih h]

theorem Sound.succeed_take (h : Sound host fallbackModel projects d) (j : Nat) :
    Sound host fallbackModel projects (succeed host fallbackModel (projects.take j) d) := by
  constructor
  · intro path taskId hmapped
    obtain ⟨hadds, hmaps⟩ := imports_importEffects host fallbackModel d
      (projects.take j) path taskId
    rw [hmapped, eq_comm, Bool.or_eq_false_iff] at hmaps
    have hnone : firstTask (projects.take j) path taskId = none := by simpa using hmaps.2
    rw [hmaps.1, if_neg Bool.false_ne_true, hnone] at hadds
    exact Eq.trans hadds (h.unmapped path taskId hmaps.1)
  · intro path taskId hmapped
    obtain ⟨hadds, hmaps⟩ := imports_importEffects host fallbackModel d
      (projects.take j) path taskId
    cases hold : isMapped (d.taskMap path) taskId with
    | true =>
        obtain ⟨task, n, htask, hn⟩ := h.mapped path taskId hold
        rw [hold, if_pos rfl] at hadds
        exact ⟨task, n, htask, Eq.trans hadds hn⟩
    | false =>
        rw [hmapped, hold, Bool.false_or] at hmaps
        obtain ⟨task, htask⟩ := Option.isSome_iff_exists.mp hmaps.symm
        rw [hold, if_neg Bool.false_ne_true, htask] at hadds
        obtain ⟨n, hn⟩ := hadds
        rw [h.unmapped path taskId hold, List.nil_append] at hn
        exact ⟨task, n, firstTask_take htask, hn⟩

theorem Spoiled.attempt (host : SdkHost F) (fallbackModel : String) (h : Spoiled projects d)
    (k : Nat) :
    Spoiled projects (attempt host fallbackModel projects d k) := by
  obtain ⟨path, taskId, hsome, hone, htwo⟩ := h
  refine ⟨path, taskId, hsome, ?_, fun hmapped => ?_⟩
  · rw [Sdk.attempt, Disk.length_stemming_applyAll]
    omega
  · rw [Sdk.attempt, Disk.length_stemming_applyAll]
    rcases mapped_attempt hmapped with hmapped | hmade
    · have := htwo hmapped
      omega
    · have hcount := List.countP_pos_iff.mpr ⟨_, hmade, show Disk.makes path taskId
        (.makeDirectory path taskId) = true by simp [Disk.makes]⟩
      omega

theorem spoiled_of_unsettled {k : Nat}
    (h : settled ((importEffects host fallbackModel d projects).take k) = false) :
    Spoiled projects (attempt host fallbackModel projects d k) := by
  obtain ⟨path, taskId, hmade, hmapped, hsome⟩ := unsettled_attempt h
  refine ⟨path, taskId, hsome, ?_, fun hmapped' => absurd (hmapped'.symm.trans hmapped) (by simp)⟩
  have hcount := List.countP_pos_iff.mpr ⟨_, hmade, show Disk.makes path taskId
    (.makeDirectory path taskId) = true by simp [Disk.makes]⟩
  rw [attempt, Disk.length_stemming_applyAll]
  omega

theorem succeed_eq_attempt (projects : List (LegacyProject F)) (d : Disk F) :
    succeed host fallbackModel projects d = attempt host fallbackModel projects d
      (importEffects host fallbackModel d projects).length := by
  rw [attempt, List.take_length, succeed]

theorem Spoiled.after_success (host : SdkHost F) (fallbackModel : String) (h : Spoiled projects d) :
    Spoiled projects (succeed host fallbackModel projects d) := by
  rw [succeed_eq_attempt]
  exact h.attempt host fallbackModel _

theorem Spoiled.not_imported (h : Spoiled projects d) :
    ¬ Imported host fallbackModel projects (succeed host fallbackModel projects d) := by
  intro himported
  have hmaps := fun path taskId => (imports_importEffects host fallbackModel d projects
    path taskId).maps
  obtain ⟨path, taskId, hsome, -, htwo⟩ := h.after_success host fallbackModel
  have htwo := htwo (by rw [hmaps, hsome, Bool.or_true])
  have hone := himported path taskId
  obtain ⟨task, htask⟩ := Option.isSome_iff_exists.mp hsome
  rw [htask] at hone
  obtain ⟨n, hn⟩ := hone
  rw [hn] at htwo
  simp at htwo

theorem Sound.imported (h : Sound host fallbackModel projects d) :
    Imported host fallbackModel projects (succeed host fallbackModel projects d) := by
  have hsound := h.succeed_take projects.length
  rw [List.take_length] at hsound
  intro path taskId
  have hmaps := (imports_importEffects host fallbackModel d projects path taskId).maps
  cases htask : firstTask projects path taskId with
  | none =>
      apply hsound.unmapped
      cases hmapped : isMapped
        ((succeed host fallbackModel projects d).taskMap path) taskId with
      | false => rfl
      | true =>
          obtain ⟨task, n, htask', -⟩ := hsound.mapped path taskId hmapped
          rw [htask] at htask'
          cases htask'
  | some task =>
      rw [htask, Option.isSome_some, Bool.or_true] at hmaps
      obtain ⟨task', n, htask', hn⟩ := hsound.mapped path taskId hmaps
      rw [htask, Option.some.injEq] at htask'
      exact ⟨n, htask' ▸ hn⟩

theorem Disk.Unmigrated.sound (host : SdkHost F) (fallbackModel : String)
    (projects : List (LegacyProject F)) (h : d.Unmigrated) :
    Sound host fallbackModel projects d where
  unmapped path taskId _ := (h path taskId).2
  mapped path taskId hmapped := absurd ((h path taskId).1.symm.trans hmapped) (by simp)

/-- Running a failed import again until it succeeds leaves exactly one conversation for
each task, with what the task held, as a run without failures does, if and only if every
failure comes where no directory has been made since the last marker. -/
theorem import_retried_iff (host : SdkHost F) (fallbackModel : String) (workspace : Members F)
    (d : Disk F) (h : d.Unmigrated) (failures : List Nat) :
    Imported host fallbackModel (legacyProjects host workspace)
      (succeed host fallbackModel (legacyProjects host workspace)
        (run (attempt host fallbackModel (legacyProjects host workspace)) d failures)) ↔
    Along (attempt host fallbackModel (legacyProjects host workspace)) (fun d k =>
      settled ((importEffects host fallbackModel d (legacyProjects host workspace)).take k) = true)
      d failures := by
  have hspoiled : ∀ (failures : List Nat) (d : Disk F), Spoiled (legacyProjects host workspace) d →
      Spoiled (legacyProjects host workspace)
        (run (attempt host fallbackModel (legacyProjects host workspace)) d failures) := by
    intro failures d hd
    exact run_invariant (fun d k hd => hd.attempt host fallbackModel k) hd failures
  have hsound := h.sound host fallbackModel (legacyProjects host workspace)
  clear h
  induction failures generalizing d with
  | nil => exact iff_of_true hsound.imported trivial
  | cons k failures ih =>
      rw [run_cons, Along]
      cases hsettled : settled
        ((importEffects host fallbackModel d (legacyProjects host workspace)).take k) with
      | true =>
          obtain ⟨j, hj⟩ := settled_attempt hsettled
          simpa using ih _ (hj ▸ hsound.succeed_take j)
      | false =>
          have hrun := hspoiled failures _ (spoiled_of_unsettled hsettled)
          simpa using hrun.not_imported

def literalSdk : SdkHost FloatText where
  toRuntime := literalRuntime
  folder := some
  projectId := id
  uuid n i := toString n ++ "-" ++ toString i
  now n i := .int (n + i)

def oneTask : Members FloatText :=
  [("projects", .arr [.obj [("path", .str "/work"), ("tasks", .arr [.obj [("id", .str "t1"),
    ("messages", .arr [.obj [("role", .str "user"), ("text", .str "go")]])]])]])]

def emptyDisk : Disk FloatText where
  folder _ := ⟨[], none⟩
  drawn := 0
  fresh _ _ hs := absurd hs List.not_mem_nil

theorem unmigrated_emptyDisk : emptyDisk.Unmigrated := fun _ _ => ⟨rfl, rfl⟩

theorem import_retried_once :
    Imported literalSdk "gpt" (legacyProjects literalSdk oneTask)
      (succeed literalSdk "gpt" (legacyProjects literalSdk oneTask)
        (run (attempt literalSdk "gpt" (legacyProjects literalSdk oneTask)) emptyDisk [1])) :=
  (import_retried_iff literalSdk "gpt" oneTask emptyDisk unmigrated_emptyDisk [1]).mpr
    ⟨by decide, trivial⟩

theorem import_retried_doubles : ¬ ∀ (host : SdkHost FloatText) (fallbackModel : String)
    (workspace : Members FloatText) (d : Disk FloatText), d.Unmigrated →
    ∀ failures : List Nat, Imported host fallbackModel (legacyProjects host workspace)
      (succeed host fallbackModel (legacyProjects host workspace)
        (run (attempt host fallbackModel (legacyProjects host workspace)) d failures)) := by
  intro h
  have hone := h literalSdk "gpt" oneTask emptyDisk unmigrated_emptyDisk [3] "/work" "t1"
  have htask : (firstTask (legacyProjects literalSdk oneTask) "/work" "t1").isSome := by
    decide
  obtain ⟨task, htask⟩ := Option.isSome_iff_exists.mp htask
  rw [htask] at hone
  obtain ⟨n, hn⟩ := hone
  have hlength := (congrArg List.length hn).trans (List.length_singleton)
  clear hn
  revert hlength
  decide

end DevPilot.Sdk
