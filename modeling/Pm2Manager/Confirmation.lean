import Mathlib.Data.List.TakeWhile
import Pm2Manager.ApiClient

/-!
# Confirmed requests

What cannot be undone is asked about in a dialog: deleting a process or a user,
and stopping all processes.  There is one dialog, which the next question takes
over; its answer goes to the question it shows, and what is sent then is what
the server does.
-/

namespace Pm2Manager

open ScriptText FieldCheck

/-! ## Requests of the page -/

def SingleAction.text : SingleAction → String
  | .start => "start"
  | .stop => "stop"
  | .restart => "restart"
  | .reload => "reload"

/-- `enc` leaves digits alone. -/
inductive PageCall
  | procAction (pmId : ℕ) (action : SingleAction)
  | bulkAction (action : BulkAction)
  | deleteProcess (pmId : ℕ)
  | deleteUser (id : ℕ)
deriving DecidableEq

namespace PageCall

def api : PageCall → ApiCall
  | .procAction pmId action =>
      ⟨.post, "/api/processes/" ++ toString pmId ++ "/" ++ action.text, .object []⟩
  | .bulkAction action => ⟨.post, "/api/processes/actions/" ++ action.text, .object []⟩
  | .deleteProcess pmId => ⟨.delete, "/api/processes/" ++ toString pmId, .object []⟩
  | .deleteUser id => ⟨.delete, "/api/users/" ++ toString id, .object []⟩

/-- What the request is meant to do. -/
def handler : PageCall → ApiHandler
  | .procAction pmId action => .process (.action action (.number pmId))
  | .bulkAction action => .process (.bulk action)
  | .deleteProcess pmId => .process (.remove (.number pmId))
  | .deleteUser id => .endpoint (.removeUser id)

def isDrastic : PageCall → Bool
  | .procAction _ _ => false
  | .bulkAction action => action = .stopAll
  | .deleteProcess _ => true
  | .deleteUser _ => true

def HasSafeId : PageCall → Prop
  | .procAction pmId _ => pmId < 2 ^ 53
  | .bulkAction _ => True
  | .deleteProcess pmId => pmId < 2 ^ 53
  | .deleteUser id => id < 2 ^ 53

end PageCall

/-! ## The dialog -/

inductive Drastic
  | deleteProcess (pmId : ℕ) (name : String)
  | deleteUser (id : ℕ) (username : String)
  | stopAll
deriving DecidableEq

structure DialogText where
  title : String
  body : String
  confirmLabel : String
deriving DecidableEq

namespace Drastic

def dialog : Drastic → DialogText
  | .deleteProcess _ name => {
      title := "Delete process"
      body := "Delete " ++ name ++
        "? It will be removed from PM2 management. This cannot be undone."
      confirmLabel := "Delete" }
  | .deleteUser _ username => {
      title := "Delete user"
      body := "Delete user " ++ username ++ "? Their sessions will be revoked immediately."
      confirmLabel := "Delete" }
  | .stopAll => {
      title := "Stop all processes"
      body := "This will stop every process managed by PM2."
      confirmLabel := "Stop all" }

def call : Drastic → PageCall
  | .deleteProcess pmId _ => .deleteProcess pmId
  | .deleteUser id _ => .deleteUser id
  | .stopAll => .bulkAction .stopAll

end Drastic

/-- `modalResolve` resolves the promise of one question; `reactions` are the
answers given whose `then` has not run yet.  `answered` is not in the page: what
the dialog showed whenever it was confirmed. -/
structure PageDialog where
  overlayOpen : Bool
  shown : DialogText
  modalResolve : Option Drastic
  reactions : List (Drastic × Bool)
  sent : List PageCall
  answered : List DialogText

inductive DialogAction
  | procAction (pmId : ℕ) (action : SingleAction)
  | bulkAction (action : BulkAction)
  | deleteProcess (pmId : ℕ) (name : String)
  | deleteUser (id : ℕ) (username : String)
  | closeModal (result : Bool)
  /-- The next `then`. -/
  | react
deriving DecidableEq

namespace PageDialog

def initial : PageDialog where
  overlayOpen := false
  shown := ⟨"", "", ""⟩
  modalResolve := none
  reactions := []
  sent := []
  answered := []

def send (page : PageDialog) (call : PageCall) : PageDialog :=
  { page with sent := page.sent ++ [call] }

def confirmModal (page : PageDialog) (drastic : Drastic) : PageDialog :=
  { page with overlayOpen := true, shown := drastic.dialog, modalResolve := some drastic }

def closeModal (page : PageDialog) (result : Bool) : PageDialog :=
  { page with
    overlayOpen := false
    modalResolve := none
    reactions := page.reactions ++ (page.modalResolve.map fun drastic => (drastic, result)).toList
    answered := if page.overlayOpen && result then page.answered ++ [page.shown]
      else page.answered }

def bulkAction (page : PageDialog) (action : BulkAction) : PageDialog :=
  if action = .stopAll then page.confirmModal .stopAll else page.send (.bulkAction action)

def step (page : PageDialog) : DialogAction → Option PageDialog
  | .procAction pmId action => some (page.send (.procAction pmId action))
  | .bulkAction action => some (page.bulkAction action)
  | .deleteProcess pmId name => some (page.confirmModal (.deleteProcess pmId name))
  | .deleteUser id username => some (page.confirmModal (.deleteUser id username))
  | .closeModal result => some (page.closeModal result)
  | .react =>
      match page.reactions with
      | [] => none
      | (drastic, ok) :: rest =>
          let page := { page with reactions := rest }
          some (if ok then page.send drastic.call else page)

end PageDialog

def dialogMachine : Machine PageDialog DialogAction where
  step := PageDialog.step

/-- The click which asks about it. -/
def Drastic.click : Drastic → DialogAction
  | .deleteProcess pmId name => .deleteProcess pmId name
  | .deleteUser id username => .deleteUser id username
  | .stopAll => .bulkAction .stopAll

def accepted (reactions : List (Drastic × Bool)) : List Drastic :=
  reactions.filterMap fun reaction => if reaction.2 then some reaction.1 else none

variable {page next : PageDialog} {action : DialogAction} {word : List DialogAction}
variable {drastic : Drastic} {libraries : ApiLibraries} {n : ℕ}

/-! ## Answers go to the question which is shown -/

/-- `confirmed` are the questions which have been confirmed, and `asked` holds of
those which have come up. -/
structure PageDialog.Answers (asked : Drastic → Prop) (page : PageDialog)
    (confirmed : List Drastic) : Prop where
  open_iff : page.overlayOpen = page.modalResolve.isSome
  shown : ∀ drastic, page.modalResolve = some drastic →
    page.shown = drastic.dialog ∧ asked drastic
  sent : page.sent.filter PageCall.isDrastic ++ (accepted page.reactions).map Drastic.call =
    confirmed.map Drastic.call
  answered : page.answered = confirmed.map Drastic.dialog
  asked : ∀ drastic ∈ confirmed, asked drastic

namespace PageDialog.Answers

variable {asked : Drastic → Prop} {confirmed : List Drastic}

theorem initial : Answers asked .initial [] where
  open_iff := rfl
  shown := by simp [PageDialog.initial]
  sent := rfl
  answered := rfl
  asked := by simp

theorem confirmModal (hanswers : page.Answers asked confirmed) (hasked : asked drastic) :
    (page.confirmModal drastic).Answers asked confirmed where
  open_iff := rfl
  shown := fun other hother => by
    obtain rfl := Option.some.inj hother
    exact ⟨rfl, hasked⟩
  sent := hanswers.sent
  answered := hanswers.answered
  asked := hanswers.asked

theorem send (hanswers : page.Answers asked confirmed) {call : PageCall}
    (hcall : call.isDrastic = false) : (page.send call).Answers asked confirmed where
  open_iff := hanswers.open_iff
  shown := hanswers.shown
  sent := by
    have hfilter : (page.sent ++ [call]).filter PageCall.isDrastic =
        page.sent.filter PageCall.isDrastic := by
      rw [List.filter_append, List.filter_singleton, hcall]
      exact List.append_nil _
    rw [PageDialog.send, hfilter]
    exact hanswers.sent
  answered := hanswers.answered
  asked := hanswers.asked

theorem accepted_append (first second : List (Drastic × Bool)) :
    accepted (first ++ second) = accepted first ++ accepted second :=
  List.filterMap_append

/-- Nothing is open: there is no question to answer. -/
theorem closeNone (hanswers : page.Answers asked confirmed)
    (hnone : page.modalResolve = none) (result : Bool) :
    (page.closeModal result).Answers asked confirmed where
  open_iff := rfl
  shown := by simp [PageDialog.closeModal]
  sent := by
    simp only [PageDialog.closeModal, hnone, Option.map_none, Option.toList_none,
      List.append_nil]
    exact hanswers.sent
  answered := by
    have hopen := hanswers.open_iff
    rw [hnone] at hopen
    simp only [PageDialog.closeModal, hopen]
    exact hanswers.answered
  asked := hanswers.asked

theorem closeSome (hanswers : page.Answers asked confirmed)
    (hsome : page.modalResolve = some drastic) (result : Bool) :
    (page.closeModal result).Answers asked
      (confirmed ++ if result then [drastic] else []) where
  open_iff := rfl
  shown := by simp [PageDialog.closeModal]
  sent := by
    have hsent := hanswers.sent
    simp only [PageDialog.closeModal, hsome, Option.map_some, Option.toList_some,
      accepted_append, List.map_append, ← List.append_assoc, hsent]
    cases result <;> rfl
  answered := by
    have hopen := hanswers.open_iff
    rw [hsome] at hopen
    simp only [PageDialog.closeModal, hopen, Option.isSome_some, Bool.true_and,
      (hanswers.shown drastic hsome).1, hanswers.answered, List.map_append]
    cases result with
    | false => exact (List.append_nil _).symm
    | true => rfl
  asked := by
    intro other hother
    rcases List.mem_append.mp hother with hold | hnew
    · exact hanswers.asked other hold
    · cases result with
      | false => cases hnew
      | true =>
          obtain rfl := List.mem_singleton.mp hnew
          exact (hanswers.shown other hsome).2

theorem react (hanswers : page.Answers asked confirmed) {ok : Bool}
    {rest : List (Drastic × Bool)} (hreactions : page.reactions = (drastic, ok) :: rest) :
    (if ok then { page with reactions := rest }.send drastic.call
      else { page with reactions := rest }).Answers asked confirmed := by
  have hsent := hanswers.sent
  rw [hreactions] at hsent
  cases ok with
  | false => exact ⟨hanswers.open_iff, hanswers.shown, hsent, hanswers.answered, hanswers.asked⟩
  | true =>
      refine ⟨hanswers.open_iff, hanswers.shown, ?_, hanswers.answered, hanswers.asked⟩
      have hdrastic : drastic.call.isDrastic = true := by cases drastic <;> rfl
      rw [← hsent]
      simp only [if_true, PageDialog.send, List.filter_append, List.filter_singleton, hdrastic,
        List.append_assoc]
      rfl

theorem step (hanswers : page.Answers asked confirmed)
    (hasked : ∀ drastic : Drastic, drastic.click = action → asked drastic)
    (hstep : page.step action = some next) : ∃ confirmed, next.Answers asked confirmed := by
  cases action with
  | procAction pmId action =>
      obtain rfl := Option.some.inj hstep
      exact ⟨confirmed, hanswers.send rfl⟩
  | bulkAction action =>
      obtain rfl := Option.some.inj hstep
      by_cases hall : action = .stopAll
      · rw [PageDialog.bulkAction, if_pos hall]
        exact ⟨confirmed, hanswers.confirmModal (hasked .stopAll (by rw [hall]; rfl))⟩
      · rw [PageDialog.bulkAction, if_neg hall]
        exact ⟨confirmed, hanswers.send (decide_eq_false hall)⟩
  | deleteProcess pmId name =>
      obtain rfl := Option.some.inj hstep
      exact ⟨confirmed, hanswers.confirmModal (hasked (.deleteProcess pmId name) rfl)⟩
  | deleteUser id username =>
      obtain rfl := Option.some.inj hstep
      exact ⟨confirmed, hanswers.confirmModal (hasked (.deleteUser id username) rfl)⟩
  | closeModal result =>
      obtain rfl := Option.some.inj hstep
      cases hresolve : page.modalResolve with
      | none => exact ⟨confirmed, hanswers.closeNone hresolve result⟩
      | some drastic => exact ⟨_, hanswers.closeSome hresolve result⟩
  | react =>
      rw [PageDialog.step] at hstep
      split at hstep
      · cases hstep
      next drastic ok rest hreactions =>
        obtain rfl := Option.some.inj hstep
        exact ⟨confirmed, hanswers.react hreactions⟩

end PageDialog.Answers

theorem answers_of_exec (hexec : dialogMachine.exec .initial word = some page) :
    ∃ confirmed, page.Answers (fun drastic => drastic.click ∈ word) confirmed := by
  have hpreserves : dialogMachine.Preserves (fun _ action => action ∈ word)
      fun page => ∃ confirmed, page.Answers (fun drastic => drastic.click ∈ word) confirmed := by
    rintro page action next ⟨confirmed, hanswers⟩ hmem hstep
    exact hanswers.step (fun drastic hclick => hclick ▸ hmem) hstep
  exact hpreserves.exec ⟨[], .initial⟩ (Machine.admits_of_forall fun _ hmem => hmem) hexec

/-- The dialog is open as long as a question waits for its answer. -/
theorem open_iff_preserved : dialogMachine.Preserves Machine.anyAction
    fun page => page.overlayOpen = page.modalResolve.isSome := by
  intro page action next hopen _ hstep
  cases action with
  | bulkAction action =>
      obtain rfl := Option.some.inj hstep
      unfold PageDialog.bulkAction
      split
      · rfl
      · exact hopen
  | react =>
      simp only [dialogMachine, PageDialog.step] at hstep
      split at hstep
      · cases hstep
      next drastic ok rest hreactions =>
        obtain rfl := Option.some.inj hstep
        cases ok with
        | false => exact hopen
        | true => exact hopen
  | procAction pmId action =>
      obtain rfl := Option.some.inj hstep
      exact hopen
  | deleteProcess pmId name =>
      obtain rfl := Option.some.inj hstep
      rfl
  | deleteUser id username =>
      obtain rfl := Option.some.inj hstep
      rfl
  | closeModal result =>
      obtain rfl := Option.some.inj hstep
      rfl

/-! ## Paths with numbers in them -/

theorem mem_intercalate {α : Type*} {sep x : α} {parts : List (List α)}
    (hx : x ∈ [sep].intercalate parts) : x = sep ∨ ∃ part ∈ parts, x ∈ part := by
  induction parts with
  | nil => simp [List.intercalate] at hx
  | cons part rest ih =>
      cases rest with
      | nil => exact .inr ⟨part, List.mem_cons_self, by simpa using hx⟩
      | cons next more =>
          rw [List.intercalate_cons_cons, List.append_assoc] at hx
          rcases List.mem_append.mp hx with hpart | hx
          · exact .inr ⟨part, List.mem_cons_self, hpart⟩
          · rcases List.mem_append.mp hx with hsep | hrest
            · exact .inl (List.mem_singleton.mp hsep)
            · rcases ih hrest with hsep | ⟨other, hother, hx⟩
              · exact .inl hsep
              · exact .inr ⟨other, List.mem_cons_of_mem part hother, hx⟩

/-- No character which a path or a part of it means something by. -/
def plainChar (c : Char) : Bool :=
  c ≠ '/' ∧ c ≠ '?' ∧ c ≠ '#' ∧ c ≠ '%'

theorem pathSegments_join {parts : List (List Char)} (hne : parts ≠ [])
    (hplain : ∀ part ∈ parts, part.all plainChar = true) :
    pathSegments (String.ofList (['/'].intercalate parts)) = parts.map String.ofList := by
  have hpart : ∀ part ∈ parts, ∀ c ∈ part, c ≠ '/' ∧ c ≠ '?' ∧ c ≠ '#' := by
    intro part hmem c hc
    have hchar := List.all_eq_true.mp (hplain part hmem) c hc
    rw [plainChar, decide_eq_true_eq] at hchar
    exact ⟨hchar.1, hchar.2.1, hchar.2.2.1⟩
  have hchars : ∀ c ∈ ['/'].intercalate parts, decide (c ≠ '?' ∧ c ≠ '#') = true := by
    intro c hc
    rcases mem_intercalate hc with rfl | ⟨part, hmem, hc⟩
    · decide
    · exact decide_eq_true (hpart part hmem c hc).2
  have hsplit : (['/'].intercalate parts).splitOn '/' = parts :=
    List.splitOn_intercalate '/' (fun part hmem hslash => (hpart part hmem '/' hslash).1 rfl) hne
  rw [pathSegments, String.toList_ofList, List.takeWhile_eq_self_iff.mpr hchars, hsplit]

theorem isDigit_of_mem {c : Char} (hc : c ∈ (toString n).toList) : isDigit c = true := by
  have hnumeral := isNumeral_toString n
  rw [isNumeral, Bool.and_eq_true] at hnumeral
  exact List.all_eq_true.mp hnumeral.2 c hc

theorem digit_bounds {c : Char} (hdigit : isDigit c = true) : 48 ≤ c.toNat ∧ c.toNat ≤ 57 := by
  rw [isDigit, decide_eq_true_eq, Char.le_def, Char.le_def, UInt32.le_iff_toNat_le,
    UInt32.le_iff_toNat_le] at hdigit
  exact hdigit

theorem numeral_plain (n : ℕ) : (toString n).toList.all plainChar = true := by
  apply List.all_eq_true.mpr
  intro c hc
  have hdigit := isDigit_of_mem hc
  rw [plainChar, decide_eq_true_eq]
  refine ⟨?_, ?_, ?_, ?_⟩
  all_goals
    rintro rfl
    exact absurd hdigit (by decide)

theorem numeral_trim (n : ℕ) : trim (toString n) = toString n := by
  have hspace : ∀ c ∈ (toString n).toList, isSpace c = false := by
    intro c hc
    have hbounds := digit_bounds (isDigit_of_mem hc)
    rw [isSpace, decide_eq_false_iff_not]
    simp only [List.mem_cons, List.not_mem_nil, or_false]
    omega
  have hstart : ∀ chars : List Char, (∀ c ∈ chars, isSpace c = false) →
      trimStart chars = chars :=
    fun chars hchars => trimStart_eq_self fun c hc => hchars c (List.mem_of_mem_head? hc)
  rw [trim, hstart _ hspace, trimEnd,
    hstart _ fun c hc => hspace c (List.mem_reverse.mp hc), List.reverse_reverse,
    String.ofList_toList]

theorem numeral_foldCase (n : ℕ) : foldCase (toString n) = (toString n).toList := by
  have hlower : ∀ c ∈ (toString n).toList, lowerAscii c = id c := by
    intro c hc
    have hbounds := digit_bounds (isDigit_of_mem hc)
    refine if_neg fun hupper => ?_
    have hle := hupper.1
    rw [Char.le_def, UInt32.le_iff_toNat_le] at hle
    have hlow : 65 ≤ c.toNat := hle
    omega
  rw [foldCase, List.map_congr_left hlower, List.map_id]

theorem numeral_utf16Length (n : ℕ) : utf16Length (toString n) = (toString n).toList.length := by
  have hone : ∀ c ∈ (toString n).toList, (if c.toNat < 0x10000 then 1 else 2) = 1 := by
    intro c hc
    have hbounds := digit_bounds (isDigit_of_mem hc)
    exact if_pos (by omega)
  rw [utf16Length, List.map_congr_left hone, List.map_const', List.sum_replicate_nat, mul_one]

/-- A number below `2 ^ 53` has at most sixteen digits. -/
theorem numeral_length (hn : n < 2 ^ 53) : (toString n).toList.length ≤ 200 := by
  rw [Nat.toString_eq_ofList_toDigits, String.toList_ofList]
  have hdigits := (Nat.length_toDigits_le_iff (b := 10) (n := n) (k := 16) (by decide)
    (by decide)).mpr (by omega)
  omega

/-- A literal with a letter in it is no number. -/
theorem isSegment_numeral (literal : String)
    (hletter : (foldCase literal).all isDigit = false) (n : ℕ) :
    isSegment literal (toString n) = false := by
  rw [isSegment, numeral_foldCase, beq_eq_false_iff_ne]
  intro heq
  rw [heq] at hletter
  exact absurd (List.all_eq_true.mpr fun c hc => isDigit_of_mem hc) (by rw [hletter]; decide)

theorem numeral_issues (hn : n < 2 ^ 53) :
    issues "idOrName" processTargetChecks (toString n) = [] := by
  have hnonempty : (toString n).toList ≠ [] := by
    have hnumeral := isNumeral_toString n
    rw [isNumeral, Bool.and_eq_true, Bool.not_eq_true', List.isEmpty_eq_false_iff] at hnumeral
    exact hnumeral.1
  have hpos : 1 ≤ (toString n).toList.length := List.length_pos_iff.mpr hnonempty
  apply issues_eq_nil_iff.mpr
  intro check hcheck
  simp only [processTargetChecks, List.mem_cons, List.not_mem_nil, or_false] at hcheck
  rcases hcheck with rfl | rfl | rfl
  · exact decide_eq_true (by rw [numeral_utf16Length]; exact hpos)
  · exact decide_eq_true (by rw [numeral_utf16Length]; exact numeral_length hn)
  · have hsegment := isSegment_numeral "all" (by decide) n
    rw [isSegment, beq_eq_false_iff_ne] at hsegment
    exact decide_eq_true fun heq => hsegment heq.symm

theorem numeral_target (hn : n < 2 ^ 53) : resolveTarget (toString n) = .number n := by
  rw [resolveTarget, if_pos (isNumeral_toString n), toNumber_toString hn]

/-! ## What the server makes of a request -/

/-- A text without an escape is decoded as itself. -/
def ApiLibraries.DecodesPlain (libraries : ApiLibraries) : Prop :=
  ∀ text : String, '%' ∉ text.toList → libraries.decodeURIComponent text = some text

def ApiLibraries.ReadsNumerals (libraries : ApiLibraries) : Prop :=
  ∀ n : ℕ, n < 2 ^ 53 → libraries.coerceInteger (.text (toString n)) = .ok (n : ℤ)

theorem BulkAction.text_plain (action : BulkAction) :
    action.text.toList.all plainChar = true ∧ action.text ≠ "" ∧
      bulkActionParamSchema action.text = .ok action := by
  cases action <;> decide

theorem SingleAction.text_plain (action : SingleAction) :
    action.text.toList.all plainChar = true ∧ action.text ≠ "" ∧
      singleAction action.text = some action := by
  cases action <;> decide

theorem not_percent {text : String} (hplain : text.toList.all plainChar = true) :
    '%' ∉ text.toList := by
  intro hmem
  have hchar := List.all_eq_true.mp hplain '%' hmem
  revert hchar
  decide

theorem path_segments {parts : List String} (hne : parts ≠ [])
    (hplain : ∀ part ∈ parts, part.toList.all plainChar = true) {path : String}
    (hpath : path.toList = ['/'].intercalate (parts.map String.toList)) :
    pathSegments path = parts := by
  have heq : path = String.ofList (['/'].intercalate (parts.map String.toList)) := by
    rw [← hpath, String.ofList_toList]
  rw [heq, pathSegments_join (by simpa using hne), List.map_map]
  · simp
  · intro part hpart
    obtain ⟨text, htext, rfl⟩ := List.mem_map.mp hpart
    exact hplain text htext

theorem withParams_plain (hdecode : libraries.DecodesPlain) {call : ApiCall}
    {parts : List String} (hplain : ∀ part ∈ parts, part.toList.all plainChar = true)
    (hne : "" ∉ parts) (make : List String → Except AppError ApiHandler) :
    withParams libraries call parts make = make parts := by
  have hparams : parts.mapM (routeParam libraries) = .ok parts := by
    induction parts with
    | nil => rfl
    | cons part rest ih =>
        have hpart := hdecode part (not_percent (hplain part List.mem_cons_self))
        have hrest := ih (fun other hother => hplain other (List.mem_cons_of_mem part hother))
          fun hmem => hne (List.mem_cons_of_mem part hmem)
        rw [List.mapM_cons, hrest, routeParam, hpart]
        rfl
  rw [withParams, if_neg hne, hparams]
  rfl

theorem routerSegments_eq {rest : List String} (hne : "" ∉ rest) :
    routerSegments rest = rest := by
  have hlast : rest.getLast? ≠ some "" := fun hlast => hne (List.mem_of_getLast? hlast)
  unfold routerSegments
  dsimp only
  split
  · exact absurd List.mem_cons_self hne
  · exact if_neg hlast

theorem apiRoute_of_segments {call : ApiCall} {mount : String} {rest : List String}
    (hne : "" ∉ rest) (hsegments : pathSegments call.path = "" :: "api" :: mount :: rest) :
    (isSegment "processes" mount = true → isSegment "auth" mount = false →
        apiRoute libraries call = processRoute libraries call rest) ∧
      (isSegment "users" mount = true → isSegment "auth" mount = false →
        isSegment "processes" mount = false → isSegment "settings" mount = false →
        apiRoute libraries call = userRoute libraries call rest) := by
  unfold apiRoute
  split
  next api other more heq =>
    rw [hsegments] at heq
    obtain ⟨-, heq⟩ := List.cons.inj heq
    obtain ⟨hname, heq⟩ := List.cons.inj heq
    obtain ⟨rfl, rfl⟩ := List.cons.inj heq
    have hapi : isSegment "api" api = true := by
      rw [← hname]
      decide
    constructor
    · intro hprocesses hauth
      simp [hapi, hprocesses, hauth, routerSegments_eq hne]
    · intro husers hauth hprocesses hsettings
      simp [hapi, husers, hauth, hprocesses, hsettings, routerSegments_eq hne]
  next hother => exact absurd hsegments (hother "api" mount rest)

theorem apiRoute_processes {call : ApiCall} {rest : List String} (hne : "" ∉ rest)
    (hsegments : pathSegments call.path = "" :: "api" :: "processes" :: rest) :
    apiRoute libraries call = processRoute libraries call rest :=
  (apiRoute_of_segments hne hsegments).1 (by decide) (by decide)

theorem apiRoute_users {call : ApiCall} {rest : List String} (hne : "" ∉ rest)
    (hsegments : pathSegments call.path = "" :: "api" :: "users" :: rest) :
    apiRoute libraries call = userRoute libraries call rest :=
  (apiRoute_of_segments hne hsegments).2 (by decide) (by decide) (by decide) (by decide)

theorem remove_operation (hn : n < 2 ^ 53) :
    ProcessRequest.operation (.single (.remove (toString n))) =
      .ok (.remove (.number n)) := by
  rw [ProcessRequest.operation, processIdParamSchema, numeral_trim, numeral_issues hn,
    parsed, if_pos rfl, ← numeral_target hn]
  rfl

theorem action_operation (hn : n < 2 ^ 53) (action : SingleAction) :
    ProcessRequest.operation (.single (.action (toString n) action.text)) =
      .ok (.action action (.number n)) := by
  rw [ProcessRequest.operation, processActionParamSchema, numeral_trim, action.text_plain.2.2]
  dsimp only
  rw [numeral_issues hn, parsed, if_pos rfl, ← numeral_target hn]
  rfl

namespace PageCall

/-- The parts of the path after the mount point. -/
def params : PageCall → List String
  | .procAction pmId action => [toString pmId, action.text]
  | .bulkAction action => ["actions", action.text]
  | .deleteProcess pmId => [toString pmId]
  | .deleteUser id => [toString id]

def mount : PageCall → String
  | .procAction _ _ => "processes"
  | .bulkAction _ => "processes"
  | .deleteProcess _ => "processes"
  | .deleteUser _ => "users"

theorem params_plain (call : PageCall) :
    "" ∉ call.params ∧ ∀ part ∈ call.params, part.toList.all plainChar = true := by
  cases call with
  | procAction pmId action =>
      obtain ⟨hplain, hne, _⟩ := action.text_plain
      have hnumeral := numeral_plain pmId
      constructor
      · simp [params, hne.symm]
      · simp only [params, List.mem_cons, List.not_mem_nil, or_false, forall_eq_or_imp, forall_eq]
        exact ⟨hnumeral, hplain⟩
  | bulkAction action =>
      obtain ⟨hplain, hne, _⟩ := action.text_plain
      constructor
      · simp [params, hne.symm]
      · simp only [params, List.mem_cons, List.not_mem_nil, or_false, forall_eq_or_imp, forall_eq]
        exact ⟨by decide, hplain⟩
  | deleteProcess pmId =>
      exact ⟨by simp [params], by simpa [params] using numeral_plain pmId⟩
  | deleteUser id =>
      exact ⟨by simp [params], by simpa [params] using numeral_plain id⟩

theorem segments_api (call : PageCall) :
    pathSegments call.api.path = "" :: "api" :: call.mount :: call.params := by
  apply path_segments (by simp)
  · intro part hpart
    simp only [List.mem_cons] at hpart
    rcases hpart with rfl | rfl | rfl | hpart
    · decide
    · decide
    · cases call <;> rw [mount] <;> decide
    · exact call.params_plain.2 part hpart
  · cases call <;> simp [api, mount, params, List.intercalate]

/-- The request of the page reaches the handler it is meant for, with the number
it was sent with. -/
theorem apiRoute_handler (hdecode : libraries.DecodesPlain)
    (hnumerals : libraries.ReadsNumerals) {call : PageCall} (hid : call.HasSafeId) :
    (apiRoute libraries call.api).handler = .ok call.handler := by
  have hsegments := call.segments_api
  obtain ⟨hne, hplain⟩ := call.params_plain
  cases call with
  | procAction pmId action =>
      have hliteral := isSegment_numeral "actions" (by decide) pmId
      have hmethod : (PageCall.procAction pmId action).api.method = .post := rfl
      rw [apiRoute_processes hne hsegments]
      dsimp only [processRoute, params] at hne hplain ⊢
      rw [hliteral, Bool.false_and, if_neg Bool.false_ne_true,
        withParams_plain hdecode hplain hne]
      dsimp only
      rw [if_pos hmethod, processHandler, action_operation hid action]
      rfl
  | bulkAction action =>
      have hactions : (isSegment "actions" "actions" &&
          (PageCall.bulkAction action).api.method == .post) = true := by
        rw [Bool.and_eq_true]
        exact ⟨by decide, rfl⟩
      rw [apiRoute_processes hne hsegments]
      dsimp only [processRoute, params] at hne hplain ⊢
      rw [if_pos hactions, withParams_plain hdecode
        (fun part hpart => hplain part (List.mem_cons_of_mem _ hpart))
        fun hempty => hne (List.mem_cons_of_mem _ hempty)]
      dsimp only
      rw [processHandler, ProcessRequest.operation, action.text_plain.2.2]
      rfl
  | deleteProcess pmId =>
      have hmethod : (PageCall.deleteProcess pmId).api.method = .delete := rfl
      rw [apiRoute_processes hne hsegments]
      dsimp only [processRoute, params] at hne hplain ⊢
      rw [withParams_plain hdecode hplain hne]
      dsimp only
      rw [if_pos hmethod, processHandler, remove_operation hid]
      rfl
  | deleteUser id =>
      have hmethod : (PageCall.deleteUser id).api.method = .delete := rfl
      rw [apiRoute_users hne hsegments]
      dsimp only [userRoute, params] at hne hplain ⊢
      rw [withParams_plain hdecode hplain hne]
      dsimp only
      rw [if_pos hmethod, hnumerals id hid]
      rfl

end PageCall

/-- In every run of the page, the drastic requests which it has sent, and those
it is about to send, are those which the dialog has been confirmed for while it
showed the process or the user they are about, each once and in order; each was
asked for by a click, and its request does what the dialog said. -/
theorem drastic_requests_confirmed (hdecode : libraries.DecodesPlain)
    (hnumerals : libraries.ReadsNumerals)
    (hexec : dialogMachine.exec .initial word = some page) :
    ∃ confirmed : List Drastic,
      page.sent.filter PageCall.isDrastic ++ (accepted page.reactions).map Drastic.call =
          confirmed.map Drastic.call ∧
        page.answered = confirmed.map Drastic.dialog ∧
        ∀ drastic ∈ confirmed, drastic.click ∈ word ∧
          (drastic.call.HasSafeId →
            (apiRoute libraries drastic.call.api).handler = .ok drastic.call.handler) := by
  obtain ⟨confirmed, hanswers⟩ := answers_of_exec hexec
  refine ⟨confirmed, hanswers.sent, hanswers.answered, fun drastic hmem => ?_⟩
  exact ⟨hanswers.asked drastic hmem, PageCall.apiRoute_handler hdecode hnumerals⟩

/-- The first question is taken over by the second, which is confirmed. -/
def sampleQuestions : List DialogAction :=
  [.deleteProcess 3 "web", .deleteUser 7 "eve", .closeModal true, .react, .closeModal true]

theorem drastic_requests_confirmed_sampleQuestions :
    ∃ page, dialogMachine.exec .initial sampleQuestions = some page ∧
      ∃ confirmed : List Drastic,
        page.sent.filter PageCall.isDrastic ++ (accepted page.reactions).map Drastic.call =
            confirmed.map Drastic.call ∧
          page.answered = confirmed.map Drastic.dialog ∧
          ∀ drastic ∈ confirmed, drastic.click ∈ sampleQuestions ∧
            (drastic.call.HasSafeId →
              (apiRoute sampleLibraries drastic.call.api).handler =
                .ok drastic.call.handler) := by
  have hnumerals : sampleLibraries.ReadsNumerals := by
    intro n hn
    dsimp only [sampleLibraries]
    rw [if_pos (isNumeral_toString n), toNumber_toString hn]
  exact ⟨_, rfl, drastic_requests_confirmed (fun _ _ => rfl) hnumerals rfl⟩

end Pm2Manager
