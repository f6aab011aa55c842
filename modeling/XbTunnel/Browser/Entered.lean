import XbTunnel.Browser.Play
import XbTunnel.Server.ShutOut

/-! When the page shows that its user is logged in. -/

namespace XbTunnel.Browser

open Common Lib.Effects Lib.Maps Lib.Runs Server
open Server.Api (Advances Call CookieEarned Earned Keeps Presents Response ShutOut Web response)
open Cookies (Cookie)
open Logins (HasSession)

variable {B : Bcrypt} {C : String → String} {makeLocalState : Server.State → LocalState}
  {x y : State} {i : ℕ} {f : Flight} {sid : SessionId}

def credentials : Call → List (Bytes × Bytes)
  | .sent _ n p | .admitted _ n p _ => [(n, p)]
  | .idle | .answered _ _ | .aborted => []

/-- The nickname and the password of the user whose session this is were typed into this page. -/
def Granted (x : State) (sid : SessionId) : Prop :=
  ∃ l kind n p pid, x.web.calls l = .admitted kind n p pid ∧ (n, p) ∈ x.tab.typed ∧
    Earned x.web n p pid ∧ HasSession x.web.server pid sid

def Bears (x : State) (cookies : List Cookie) : Prop :=
  ∃ sid, cookies = [Cookies.setSessionCookie sid] ∧ Granted x sid

structure Fine (x : State) (f : Flight) : Prop where
  cookies : f.cookies = [] ∨ Bears x f.cookies
  typed : ∀ c ∈ f.message.typed, c ∈ x.tab.typed
  refresh : f.caller = .refreshRooms → f.message = .page (.rooms .get none none)
  call : ∀ l, f.progress = .call l → (∀ page, f.message ≠ .page page) ∧ x.web.calls l ≠ .idle ∧
    ∀ c ∈ credentials (x.web.calls l), c ∈ x.tab.typed
  cookie : ∀ r c, f.progress = .answered (some r) → r.cookie = some c → Bears x [c]
  answered : ∀ r, f.progress = .answered (some r) → f.caller = .refreshRooms →
    succeeds r = true → Bears x f.cookies

def Entered (x : State) : Prop :=
  ∃ i f, x.tab.flights i = some f ∧ f.caller = .refreshRooms ∧ Bears x f.cookies

variable (B C makeLocalState) in
structure Inv (x : State) : Prop where
  web : Api.Inv B C makeLocalState x.web
  sessionid : x.tab.sessionid.toList = [] ∨ Bears x x.tab.sessionid.toList
  flights : ∀ i f, x.tab.flights i = some f → Fine x f
  loggedIn : x.tab.scope.loggedIn = true → Entered x

structure Later (x y : State) : Prop where
  typed : ∀ c ∈ x.tab.typed, c ∈ y.tab.typed
  web : Keeps x.web y.web

lemma advances_credentials {call call' : Call} (h : Advances call call') (hi : call ≠ .idle) :
    call' ≠ .idle ∧ ∀ c ∈ credentials call', c ∈ credentials call := by
  cases h with
  | same => exact ⟨hi, fun _ => id⟩
  | begins => exact absurd rfl hi
  | admitted => exact ⟨nofun, fun _ => id⟩
  | answered => exact ⟨nofun, fun _ h => nomatch h⟩

lemma Granted.mono (h : Granted x sid) (hl : Later x y) : Granted y sid := by
  obtain ⟨l, kind, n, p, pid, hc, ht, ⟨r, hr, hd⟩, hs⟩ := h
  have ha := hl.web.calls l
  rw [hc] at ha
  refine ⟨l, kind, n, p, pid, ?_, hl.typed _ ht, ⟨r, hl.web.registered r hr, hd⟩,
    hl.web.sessions _ _ hs⟩
  generalize y.web.calls l = call at ha ⊢
  cases ha with
  | same => rfl

lemma Bears.mono {cookies : List Cookie} (h : Bears x cookies) (hl : Later x y) :
    Bears y cookies := by
  obtain ⟨sid, he, hg⟩ := h
  exact ⟨sid, he, hg.mono hl⟩

lemma Fine.mono (h : Fine x f) (hl : Later x y) : Fine y f where
  cookies := h.cookies.imp id fun hb => hb.mono hl
  typed c hc := hl.typed c (h.typed c hc)
  refresh := h.refresh
  call l hp := by
    obtain ⟨hm, hi, hc⟩ := h.call l hp
    obtain ⟨hi', hc'⟩ := advances_credentials (hl.web.calls l) hi
    exact ⟨hm, hi', fun c hcm => hl.typed c (hc c (hc' c hcm))⟩
  cookie r c hp hc := (h.cookie r c hp hc).mono hl
  answered r hp hc hs := (h.answered r hp hc hs).mono hl

lemma inv_start (db : Db) : Inv B C makeLocalState (start C db) where
  web := Api.inv_start db
  sessionid := .inl rfl
  flights i f h := by cases h
  loggedIn h := by cases h

lemma Inv.moves (h : Inv B C makeLocalState x) (hl : Later x y)
    (hw : Api.Inv B C makeLocalState y.web)
    (hf : y.tab.flights = Function.update x.tab.flights i (some f)) (hfine : Fine y f)
    (hsame : ∀ g, x.tab.flights i = some g → g.caller = f.caller ∧ g.cookies = f.cookies)
    (hs : y.tab.sessionid.toList = x.tab.sessionid.toList ∨ Bears y y.tab.sessionid.toList)
    (hin : y.tab.scope.loggedIn = true → x.tab.scope.loggedIn = true ∨
      f.caller = .refreshRooms ∧ Bears y f.cookies) : Inv B C makeLocalState y where
  web := hw
  sessionid := by
    rcases hs with hs | hs
    · rw [hs]
      exact h.sessionid.imp id fun hb => hb.mono hl
    · exact .inr hs
  flights j g hg := by
    by_cases he : j = i
    · rw [hf, he, Function.update_self] at hg
      obtain rfl := Option.some.inj hg
      exact hfine
    · rw [hf, Function.update_of_ne he] at hg
      exact (h.flights j g hg).mono hl
  loggedIn hy := by
    rcases hin hy with hx | ⟨hc, hb⟩
    · obtain ⟨j, g, hg, hc, hb⟩ := h.loggedIn hx
      by_cases he : j = i
      · obtain ⟨hcaller, hcookies⟩ := hsame g (he ▸ hg)
        refine ⟨i, f, ?_, hcaller ▸ hc, hcookies ▸ hb.mono hl⟩
        rw [hf, Function.update_self]
      · refine ⟨j, g, ?_, hc, hb.mono hl⟩
        rw [hf, Function.update_of_ne he]
        exact hg
    · refine ⟨i, f, ?_, hc, hb⟩
      rw [hf, Function.update_self]

lemma later_tab {tab : Tab} (ht : tab.typed = x.tab.typed) : Later x { x with tab } :=
  ⟨fun _ hc => ht ▸ hc, fun _ => .same, fun _ => id, fun _ _ => id⟩

lemma Inv.later_web {op : Api.Op} {web : Web} (h : Inv B C makeLocalState x)
    (hs : Api.step B C makeLocalState x.web op = some web) (tab : Tab)
    (ht : tab.typed = x.tab.typed) : Later x ⟨tab, web⟩ :=
  ⟨fun _ hc => ht ▸ hc, Api.step_keeps h.web hs⟩

lemma Inv.sent (h : Inv B C makeLocalState x) (caller : Caller) (message : Message)
    (hr : caller = .refreshRooms → message = .page (.rooms .get none none))
    (hi : x.tab.flights i = none) (timer : Bool) : Inv B C makeLocalState { x with
      tab := send i caller message { x.tab with
        timer
        typed := x.tab.typed ++ message.typed } } := by
  have hl : Later x { x with
      tab := send i caller message { x.tab with
        timer
        typed := x.tab.typed ++ message.typed } } :=
    ⟨fun _ hc => List.mem_append_left _ hc, fun _ => .same, fun _ => id, fun _ _ => id⟩
  refine h.moves hl h.web rfl ⟨?_, ?_, hr, nofun, nofun, nofun⟩ (fun g hg => ?_) (.inl rfl) .inl
  · exact h.sessionid.imp id fun hb => hb.mono hl
  · exact fun c hc => List.mem_append_right _ hc
  · cases hi.symm.trans hg

lemma callOp_calls {l : LoginId} {salt : Bytes} {inserted : Except String PeerId}
    {message : Message} {op : Api.Op} {w w' : Web} (ho : callOp l salt inserted message = some op)
    (hs : Api.step B C makeLocalState w op = some w') :
    (∀ page, message ≠ .page page) ∧ w'.calls l ≠ .idle ∧
      ∀ c ∈ credentials (w'.calls l), c ∈ message.typed := by
  cases message with
  | page page => cases ho
  | register n p =>
    obtain rfl := Option.some.inj ho
    obtain ⟨-, hs⟩ := Option.ite_none_right_eq_some.mp hs
    split at hs <;> obtain rfl := Option.some.inj hs
    · rename_i n p _
      rw [Api.registerUser, Api.setCall_calls_self]
      rcases Api.afterRegister_cases n p (Server.register B C n p salt inserted w.db).2 with
        he | he <;> rw [he]
      · exact ⟨nofun, nofun, fun _ => id⟩
      · exact ⟨nofun, nofun, nofun⟩
    · rw [Api.setCall_calls_self]
      exact ⟨nofun, nofun, nofun⟩
  | login n p =>
    obtain rfl := Option.some.inj ho
    obtain ⟨-, hs⟩ := Option.ite_none_right_eq_some.mp hs
    split at hs <;> obtain rfl := Option.some.inj hs
    · rw [Api.setCall_calls_self]
      exact ⟨nofun, nofun, fun _ => id⟩
    · rw [Api.setCall_calls_self]
      exact ⟨nofun, nofun, nofun⟩

lemma visit_fine {page : Api.Page} {cookies : List Cookie} {ch : Api.Choices}
    (hb : cookies = [] ∨ Bears x cookies)
    (hg : Api.Guarded C makeLocalState x.web (.visit page cookies ch)) {r : Response}
    (hr : served (Api.visit C (x.web.env C makeLocalState) x.web.db page cookies ch
      x.web.server) = .answered (some r)) :
    r.cookie = none ∧ (succeeds r = true → Bears x cookies) := by
  obtain ⟨t, ho⟩ : ∃ t, Api.visit C (x.web.env C makeLocalState) x.web.db page cookies ch
      x.web.server = .ok r t := by
    cases ho : Api.visit C (x.web.env C makeLocalState) x.web.db page cookies ch x.web.server with
    | ok r' t =>
      rw [ho] at hr
      obtain rfl := Option.some.inj (Progress.answered.inj hr)
      exact ⟨t, rfl⟩
    | panic t | hang t =>
      rw [ho] at hr
      cases hr
  by_cases he : ∃ sid, Presents cookies sid ∧ Api.Authenticated x.web sid
  · obtain ⟨sid, hp, ha⟩ := he
    refine ⟨((hg.2 sid hp ha).of_ok ho).served.2, fun _ => hb.resolve_left ?_⟩
    rintro rfl
    cases hp
  · have hn : ∀ sid, Presents cookies sid → ¬ Api.Authenticated x.web sid :=
      fun sid hp ha => he ⟨sid, hp, ha⟩
    obtain ⟨rfl, -⟩ := (hg.1 hn).of_ok ho
    exact ⟨rfl, fun hs => by cases hs⟩

lemma handle_loggedIn {caller : Caller} {r : Option Response} {s : Scope}
    (h : (handle caller r s).loggedIn = true) :
    s.loggedIn = true ∨ caller = .refreshRooms ∧ ∃ r', r = some r' ∧ succeeds r' = true := by
  cases caller with
  | refreshRooms =>
    cases r with
    | none => exact .inl h
    | some r =>
      by_cases hr : succeeds r = true
      · exact .inr ⟨rfl, r, rfl, hr⟩
      · simp only [handle, if_neg hr, error, revealLogin] at h
        split at h
        · cases h
        · exact .inl h
  | makeRoom | login | register | changeRoom =>
    cases r with
    | none => exact .inl h
    | some r =>
      simp only [handle] at h
      split at h <;> exact .inl h

lemma Inv.callAnswer (h : Inv B C makeLocalState x) {l : LoginId} {r : Response} {c : Cookie}
    (hc : ∀ c ∈ credentials (x.web.calls l), c ∈ x.tab.typed)
    (hr : callAnswer x.web l = some (some r)) (hk : r.cookie = some c) : Bears x [c] := by
  have hresp : response x.web l = some r := by
    rw [Browser.callAnswer] at hr
    split at hr
    · cases hr
    · obtain ⟨r', hr', he⟩ := Option.map_eq_some_iff.mp hr
      exact hr'.trans he
  obtain ⟨kind, n, p, pid, sid, hcall, rfl, he, hs⟩ := h.web.cookieEarned l r c hresp hk
  refine ⟨sid, rfl, l, kind, n, p, pid, hcall, ?_, he, hs⟩
  rw [hcall] at hc
  exact hc _ List.mem_cons_self

lemma Inv.delivered (h : Inv B C makeLocalState x) {r : Option Response}
    (hf : x.tab.flights i = some f) (hp : f.progress = .answered r) :
    Inv B C makeLocalState { x with tab := receive i f r x.tab } := by
  have hl : Later x { x with tab := receive i f r x.tab } := later_tab rfl
  have hfine := h.flights i f hf
  refine h.moves hl h.web rfl ⟨?_, ?_, ?_, nofun, nofun, nofun⟩ (fun g hg => ?_) ?_ fun hin => ?_
  · exact (hfine.mono hl).cookies
  · exact hfine.typed
  · exact hfine.refresh
  · obtain rfl := Option.some.inj (hf.symm.trans hg)
    exact ⟨rfl, rfl⟩
  · cases r with
    | none => exact .inl rfl
    | some r =>
      have he : (receive i f (some r) x.tab).sessionid = r.cookie.or x.tab.sessionid := rfl
      cases hc : r.cookie with
      | none =>
        rw [hc] at he
        exact .inl (congrArg Option.toList he)
      | some c =>
        rw [hc] at he
        refine .inr ?_
        rw [show Option.toList _ = [c] from congrArg Option.toList he]
        exact (hfine.cookie r c hp hc).mono hl
  · rcases handle_loggedIn hin with hin | ⟨hc, r', rfl, hs⟩
    · exact .inl hin
    · exact .inr ⟨hc, (hfine.answered r' hp hc hs).mono hl⟩

lemma Inv.progress (h : Inv B C makeLocalState x) {web : Web} {progress : Progress}
    (hl : Later x ⟨setFlight i { f with progress } x.tab, web⟩)
    (hw : Api.Inv B C makeLocalState web) (hf : x.tab.flights i = some f)
    (hfine : Fine ⟨setFlight i { f with progress } x.tab, web⟩ { f with progress }) :
    Inv B C makeLocalState ⟨setFlight i { f with progress } x.tab, web⟩ := by
  refine h.moves hl hw rfl hfine (fun g hg => ?_) (.inl rfl) .inl
  obtain rfl := Option.some.inj (hf.symm.trans hg)
  exact ⟨rfl, rfl⟩

lemma served_ne_call {σ : Type} (o : Outcome σ Response) (l : LoginId) : served o ≠ .call l := by
  cases o <;> exact nofun

lemma request_not_refresh {c : Click} {caller : Caller} {message : Message}
    (h : c.request = some (caller, message)) (hc : caller = .refreshRooms) :
    message = .page (.rooms .get none none) := by
  subst hc
  cases c <;> cases h

lemma Inv.step {op : Op} (h : Inv B C makeLocalState x)
    (hs : step B C makeLocalState x op = some y) : Inv B C makeLocalState y := by
  cases op with
  | timer i =>
    obtain ⟨⟨-, hi⟩, hs⟩ := Option.ite_none_right_eq_some.mp hs
    obtain rfl := Option.some.inj hs
    have hsent := h.sent .refreshRooms (.page (.rooms .get none none)) (fun _ => rfl) hi false
    simp only [Message.typed, List.append_nil] at hsent
    exact hsent
  | click i c =>
    simp only [Browser.step] at hs
    split at hs
    · obtain rfl := Option.some.inj hs
      have hl : Later x { x with
          tab := { x.tab with scope := revealMakeRoom x.tab.scope } } := later_tab rfl
      refine ⟨h.web, h.sessionid.imp id fun hb => hb.mono hl,
        fun i f hf => (h.flights i f hf).mono hl, fun hin => ?_⟩
      obtain ⟨i, f, hf, hc, hb⟩ := h.loggedIn hin
      exact ⟨i, f, hf, hc, hb.mono hl⟩
    · rename_i caller message hc
      obtain ⟨hi, hs⟩ := Option.ite_none_right_eq_some.mp hs
      obtain rfl := Option.some.inj hs
      exact h.sent caller message (request_not_refresh hc) hi x.tab.timer
  | receive i l salt inserted =>
    simp only [Browser.step] at hs
    split at hs
    · rename_i caller message cookies hf
      obtain ⟨op, ho, hs⟩ := Option.bind_eq_some_iff.mp hs
      obtain ⟨web, hw, rfl⟩ := Option.map_eq_some_iff.mp hs
      have hl := h.later_web hw
        (setFlight i ⟨caller, message, cookies, .call l⟩ x.tab) rfl
      -- the request becomes the login `l` of the server, which carries what was typed
      obtain ⟨hm, hi, hc⟩ := callOp_calls ho hw
      have hfine := (h.flights i _ hf).mono hl
      refine h.progress hl (h.web.step hw) hf ⟨hfine.cookies, hfine.typed, hfine.refresh,
        fun l' hp => ?_, nofun, nofun⟩
      obtain rfl := Progress.call.inj hp
      exact ⟨hm, hi, fun c hcm => hfine.typed c (hc c hcm)⟩
    · cases hs
  | serve i ch =>
    simp only [Browser.step] at hs
    split at hs
    · rename_i caller page cookies hf
      obtain ⟨web, hw, rfl⟩ := Option.map_eq_some_iff.mp hs
      have hl := h.later_web hw (setFlight i ⟨caller, .page page, cookies, served (Api.visit C
          (x.web.env C makeLocalState) x.web.db page cookies ch x.web.server)⟩ x.tab) rfl
      have hfine := (h.flights i _ hf).mono hl
      have hvisit := fun r => visit_fine (r := r) (h.flights i _ hf).cookies (h.web.guarded hw)
      refine h.progress hl (h.web.step hw) hf ⟨hfine.cookies, hfine.typed, hfine.refresh,
        fun l' hp => ?_, fun r c hp hc => ?_, fun r hp _ hr => ?_⟩
      · exact absurd hp (served_ne_call _ l')
      · cases (hvisit r hp).1.symm.trans hc
      · exact ((hvisit r hp).2 hr).mono hl
    · cases hs
  | respond i =>
    simp only [Browser.step] at hs
    split at hs
    · rename_i caller message cookies l hf
      obtain ⟨r, hr, rfl⟩ := Option.map_eq_some_iff.mp hs
      have hfine := h.flights i _ hf
      obtain ⟨hm, -, hc⟩ := hfine.call l rfl
      have hl : Later x { x with
          tab := setFlight i ⟨caller, message, cookies, .answered r⟩ x.tab } := later_tab rfl
      have hfine' := hfine.mono hl
      refine h.progress hl h.web hf ⟨hfine'.cookies, hfine'.typed, hfine'.refresh, nofun,
        fun r' c hp hk => ?_, fun r' _ hcaller => absurd (hfine.refresh hcaller) (hm _)⟩
      obtain rfl := Progress.answered.inj hp
      exact (h.callAnswer hc hr hk).mono hl
    · cases hs
  | fail i =>
    simp only [Browser.step] at hs
    split at hs
    · rename_i f hf
      obtain ⟨-, hs⟩ := Option.ite_none_right_eq_some.mp hs
      obtain rfl := Option.some.inj hs
      have hl : Later x { x with
          tab := setFlight i { f with progress := .answered none } x.tab } := later_tab rfl
      have hfine := (h.flights i _ hf).mono hl
      exact h.progress hl h.web hf ⟨hfine.cookies, hfine.typed, hfine.refresh, nofun, nofun, nofun⟩
    · cases hs
  | deliver i =>
    simp only [Browser.step] at hs
    split at hs
    · rename_i caller message cookies r hf
      obtain rfl := Option.some.inj hs
      exact h.delivered hf rfl
    · cases hs
  | web op =>
    obtain ⟨web, hw, rfl⟩ := Option.map_eq_some_iff.mp hs
    have hl := h.later_web hw x.tab rfl
    refine ⟨h.web.step hw, h.sessionid.imp id fun hb => hb.mono hl,
      fun i f hf => (h.flights i f hf).mono hl, fun hin => ?_⟩
    obtain ⟨i, f, hf, hc, hb⟩ := h.loggedIn hin
    exact ⟨i, f, hf, hc, hb.mono hl⟩

theorem logged_in_entered (db : Db) {tr : List (State × Op)} {u : State}
    (h : Run (Steps (step B C makeLocalState)) (start C db) tr u) :
    AllStates (fun x => x.tab.scope.loggedIn = true → Entered x) tr u := by
  have hall : AllStates (Inv B C makeLocalState) tr u :=
    h.invariant (fun _ _ _ => Inv.step) (inv_start db)
  exact ⟨fun x hx => (hall.1 x hx).loggedIn, hall.2.loggedIn⟩

section Timer

inductive TabMoves (tab : Tab) : Op → Tab → Prop
  | asks {i : ℕ} : tab.timer = true → TabMoves tab (.timer i)
      (send i .refreshRooms (.page (.rooms .get none none)) { tab with timer := false })
  | reveals {i : ℕ} {c scope} : TabMoves tab (.click i c) { tab with scope }
  | sends {i : ℕ} {c caller message typed} : caller ≠ .refreshRooms →
      TabMoves tab (.click i c) (send i caller message { tab with typed })
  | progresses {op progress} {i : ℕ} {f : Flight} : (∀ j, op ≠ .timer j) → tab.flights i = some f →
      TabMoves tab op (setFlight i { f with progress } tab)
  | receives {r} {i : ℕ} {f : Flight} : tab.flights i = some f →
      TabMoves tab (.deliver i) (receive i f r tab)
  | rests {op} : TabMoves tab (.web op) tab

lemma step_cases {op : Op} (hs : step B C makeLocalState x op = some y) :
    TabMoves x.tab op y.tab ∧
      (y.web = x.web ∨ ∃ op, Api.step B C makeLocalState x.web op = some y.web) := by
  cases op with
  | timer i =>
    obtain ⟨⟨ht, -⟩, hs⟩ := Option.ite_none_right_eq_some.mp hs
    obtain rfl := Option.some.inj hs
    exact ⟨.asks ht, .inl rfl⟩
  | click i c =>
    simp only [Browser.step] at hs
    split at hs
    · obtain rfl := Option.some.inj hs
      exact ⟨.reveals, .inl rfl⟩
    · rename_i caller message hc
      obtain ⟨-, hs⟩ := Option.ite_none_right_eq_some.mp hs
      obtain rfl := Option.some.inj hs
      refine ⟨.sends ?_, .inl rfl⟩
      rintro rfl
      cases c <;> cases hc
  | receive i l salt inserted =>
    simp only [Browser.step] at hs
    split at hs
    · rename_i hf
      obtain ⟨op, -, hs⟩ := Option.bind_eq_some_iff.mp hs
      obtain ⟨web, hw, rfl⟩ := Option.map_eq_some_iff.mp hs
      exact ⟨.progresses (fun _ he => by cases he) hf, .inr ⟨op, hw⟩⟩
    · cases hs
  | serve i ch =>
    simp only [Browser.step] at hs
    split at hs
    · rename_i hf
      obtain ⟨web, hw, rfl⟩ := Option.map_eq_some_iff.mp hs
      exact ⟨.progresses (fun _ he => by cases he) hf, .inr ⟨_, hw⟩⟩
    · cases hs
  | respond i =>
    simp only [Browser.step] at hs
    split at hs
    · rename_i hf
      obtain ⟨r, -, rfl⟩ := Option.map_eq_some_iff.mp hs
      exact ⟨.progresses (fun _ he => by cases he) hf, .inl rfl⟩
    · cases hs
  | fail i =>
    simp only [Browser.step] at hs
    split at hs
    · rename_i hf
      obtain ⟨-, hs⟩ := Option.ite_none_right_eq_some.mp hs
      obtain rfl := Option.some.inj hs
      exact ⟨.progresses (fun _ he => by cases he) hf, .inl rfl⟩
    · cases hs
  | deliver i =>
    simp only [Browser.step] at hs
    split at hs
    · rename_i hf
      obtain rfl := Option.some.inj hs
      exact ⟨.receives hf, .inl rfl⟩
    · cases hs
  | web op =>
    obtain ⟨web, hw, rfl⟩ := Option.map_eq_some_iff.mp hs
    exact ⟨.rests, .inr ⟨op, hw⟩⟩

variable {P : Caller → List Cookie → Prop} {tab tab' : Tab} {op : Op}

lemma forall_setFlight (h : ∀ j g, tab.flights j = some g → P g.caller g.cookies)
    (hf : P f.caller f.cookies) :
    ∀ j g, (setFlight i f tab).flights j = some g → P g.caller g.cookies := by
  intro j g hg
  by_cases he : j = i
  · rw [he, setFlight_flights_self] at hg
    obtain rfl := Option.some.inj hg
    exact hf
  · rw [setFlight_flights_of_ne he] at hg
    exact h j g hg

lemma TabMoves.flights (hm : TabMoves tab op tab')
    (h : ∀ i f, tab.flights i = some f → P f.caller f.cookies)
    (htimer : (∃ i, op = .timer i) → P .refreshRooms tab.sessionid.toList)
    (hclick : ∀ caller cookies, caller ≠ .refreshRooms → P caller cookies) :
    ∀ i f, tab'.flights i = some f → P f.caller f.cookies := by
  cases hm with
  | asks => exact forall_setFlight h (htimer ⟨_, rfl⟩)
  | reveals | rests => exact h
  | sends hc => exact forall_setFlight h (hclick _ _ hc)
  | @progresses _ progress i f _ hf =>
    exact forall_setFlight (f := { f with progress }) h (h i f hf)
  | @receives r i f hf =>
    exact forall_setFlight (f := { f with progress := .handled }) h (h i f hf)

lemma TabMoves.timer (hm : TabMoves tab op tab') : tab'.timer = tab.timer ∧ (∀ i, op ≠ .timer i) ∨
    (∃ i, op = .timer i) ∧ tab.timer = true ∧ tab'.timer = false := by
  cases hm with
  | asks ht => exact .inr ⟨⟨_, rfl⟩, ht, rfl⟩
  | progresses hn => exact .inl ⟨rfl, hn⟩
  | reveals | sends | receives | rests => exact .inl ⟨rfl, nofun⟩

def Unasked (x : State) : Prop := x.tab.timer = true →
  ∀ i f, x.tab.flights i = some f → f.caller ≠ .refreshRooms

def AskedBlank (x : State) : Prop := x.tab.timer = false ∧
  ∀ i f, x.tab.flights i = some f → f.caller = .refreshRooms → f.cookies = []

lemma Unasked.step (h : Unasked x) (hs : step B C makeLocalState x op = some y) : Unasked y := by
  intro ht'
  have hm := (step_cases hs).1
  rcases hm.timer with ⟨he, hn⟩ | ⟨-, -, hf⟩
  · exact hm.flights (P := fun caller _ => caller ≠ .refreshRooms) (h (he ▸ ht'))
      (fun ⟨i, hi⟩ => absurd hi (hn i)) fun _ _ => id
  · cases ht'.symm.trans hf

lemma AskedBlank.step (h : AskedBlank x) (hs : step B C makeLocalState x op = some y) :
    AskedBlank y := by
  have hm := (step_cases hs).1
  rcases hm.timer with ⟨he, hn⟩ | ⟨-, ht, -⟩
  · exact ⟨he.trans h.1, hm.flights (P := fun caller cookies => caller = .refreshRooms →
      cookies = []) h.2 (fun ⟨i, hi⟩ => absurd hi (hn i)) fun _ _ hc hc' => absurd hc' hc⟩
  · cases h.1.symm.trans ht

lemma Unasked.askedBlank (h : Unasked x) (hs : Browser.step B C makeLocalState x (.timer i) = some y)
    (hn : x.tab.sessionid = none) : AskedBlank y := by
  have hm := (step_cases hs).1
  rcases hm.timer with ⟨-, hne⟩ | ⟨-, ht, hf⟩
  · exact absurd rfl (hne i)
  · refine ⟨hf, hm.flights (P := fun caller cookies => caller = .refreshRooms → cookies = [])
      (fun j f hj hc => absurd hc (h ht j f hj)) (fun _ _ => ?_) fun _ _ hc hc' => absurd hc' hc⟩
    rw [hn]
    rfl

theorem too_early (db : Db) {tr : List (State × Op)} {u : State}
    (h : Run (Steps (step B C makeLocalState)) (start C db) tr u)
    (hm : (x, .timer i) ∈ tr) (hx : x.tab.sessionid = none) : u.tab.scope.loggedIn = false := by
  obtain ⟨tr₁, v, tr₂, hbefore, hstep, hafter⟩ := h.at_step hm
  have hun : Unasked x :=
    hbefore.invariant_last (fun _ _ _ hun hs => hun.step hs) fun _ i f hf => by cases hf
  have hblank : AskedBlank u :=
    hafter.invariant_last (fun _ _ _ hb hs => hb.step hs) (hun.askedBlank hstep hx)
  have hinv : Inv B C makeLocalState u := h.invariant_last (fun _ _ _ => Inv.step) (inv_start db)
  cases hin : u.tab.scope.loggedIn with
  | false => rfl
  | true =>
    obtain ⟨j, f, hf, hc, sid, hs, -⟩ := hinv.loggedIn hin
    cases (hblank.2 j f hf hc).symm.trans hs

end Timer

theorem stays_outside (db : Db) {tr : List (State × Op)} {u : State}
    (h : Run (Steps (step B id makeLocalState)) (start id db) tr u) :
    AllStates (fun x => x.tab.sessionid = none ∧ x.tab.scope.loggedIn = false) tr u := by
  have hstep : ∀ x op y, Inv B id makeLocalState x ∧ ShutOut x.web →
      Steps (step B id makeLocalState) x op y → Inv B id makeLocalState y ∧ ShutOut y.web := by
    rintro x op y ⟨hi, ho⟩ hs
    refine ⟨hi.step hs, ?_⟩
    rcases (step_cases hs).2 with he | ⟨op, hw⟩
    · rw [he]
      exact ho
    · exact ho.step hi.web hw
  have hnone : ∀ x, Inv B id makeLocalState x ∧ ShutOut x.web →
      x.tab.sessionid = none ∧ x.tab.scope.loggedIn = false := by
    rintro x ⟨hi, ho⟩
    have hb : ∀ cookies, ¬ Bears x cookies := by
      rintro _ ⟨_, -, l, kind, n, p, pid, hc, -⟩
      exact ho.admitted l kind n p pid hc
    constructor
    · exact Option.toList_eq_nil_iff.mp (hi.sessionid.resolve_right (hb _))
    · cases hin : x.tab.scope.loggedIn with
      | false => rfl
      | true =>
        obtain ⟨_, _, -, -, hbears⟩ := hi.loggedIn hin
        exact absurd hbears (hb _)
  obtain ⟨htr, hu⟩ := h.invariant hstep ⟨inv_start db, Api.shutOut_start db⟩
  exact ⟨fun x hx => hnone x.1 (htr x hx), hnone u hu⟩

section Samples

def samplePage (C : String → String) : State → Op → Option State :=
  step sampleBcrypt C fun _ => LocalState.zero

def registersFirst : List Op :=
  [.click 0 (.register (some alice.nickname) (some [0x70])),
    .receive 0 0 sampleSalt (.ok alice.id), .web (.find 0 0), .web (.check 0 []),
    .web (.create 0 aliceSession), .respond 0, .deliver 0, .timer 1,
    .serve 1 ⟨⟨[50]⟩, [aliceSession], [aliceSession], [aliceSession]⟩, .deliver 1]

theorem registersFirst_enters : ∃ tr u, tr.map Prod.snd = registersFirst ∧
    Run (Steps (samplePage oneCollection)) (start oneCollection emptyDb) tr u ∧
    u.tab.scope.loggedIn = true ∧
    AllStates (fun x => x.tab.scope.loggedIn = true → Entered x) tr u := by
  have hend : (exec (samplePage oneCollection) (start oneCollection emptyDb)
      registersFirst).any (fun u => u.tab.scope.loggedIn) = true := rfl
  obtain ⟨tr, u, ha, hr, hd⟩ := exec_any _ hend
  exact ⟨tr, u, ha, hr, hd, logged_in_entered emptyDb hr⟩

def asksFirst : List Op :=
  [.timer 1, .serve 1 ⟨⟨[50]⟩, [], [], []⟩, .deliver 1,
    .click 0 (.register (some alice.nickname) (some [0x70])),
    .receive 0 0 sampleSalt (.ok alice.id), .web (.find 0 0), .web (.check 0 []),
    .web (.create 0 aliceSession), .respond 0, .deliver 0]

theorem asksFirst_too_early : ∃ tr u, tr.map Prod.snd = asksFirst ∧
    Run (Steps (samplePage oneCollection)) (start oneCollection emptyDb) tr u ∧
    u.tab.sessionid = some (Cookies.setSessionCookie aliceSession) ∧
    u.tab.scope.loggedIn = false := by
  have hend : (exec (samplePage oneCollection) (start oneCollection emptyDb)
      asksFirst).any (fun u =>
        decide (u.tab.sessionid = some (Cookies.setSessionCookie aliceSession))) = true := rfl
  obtain ⟨tr, u, ha, hr, hd⟩ := exec_any _ hend
  have hm : (start oneCollection emptyDb, .timer 1) ∈ tr := by
    cases hr with
    | nil => cases ha
    | cons _ _ =>
      obtain ⟨rfl, -⟩ := List.cons.inj ha
      exact List.mem_cons_self
  exact ⟨tr, u, ha, hr, of_decide_eq_true hd, too_early emptyDb hr hm rfl⟩

def registersInVain : List Op :=
  [.click 0 (.register (some alice.nickname) (some [0x70])),
    .receive 0 0 sampleSalt (.ok alice.id), .web (.find 0 0), .respond 0, .deliver 0, .timer 1,
    .serve 1 ⟨⟨[50]⟩, [], [], []⟩, .deliver 1]

theorem registersInVain_stays_outside : ∃ tr u, tr.map Prod.snd = registersInVain ∧
    Run (Steps (samplePage id)) (start id emptyDb) tr u ∧ u.tab.scope.dialogs = [.login] ∧
    AllStates (fun x => x.tab.sessionid = none ∧ x.tab.scope.loggedIn = false) tr u := by
  have hend : (exec (samplePage id) (start id emptyDb) registersInVain).any
      (fun u => decide (u.tab.scope.dialogs = [.login])) = true := rfl
  obtain ⟨tr, u, ha, hr, hd⟩ := exec_any _ hend
  exact ⟨tr, u, ha, hr, of_decide_eq_true hd, stays_outside emptyDb hr⟩

end Samples

end XbTunnel.Browser
