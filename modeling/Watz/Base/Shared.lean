import Mathlib.Logic.Function.Basic

namespace Watz.Base.Shared

-- A program that reads and writes memory which another party may change between any two of
-- its accesses. Of a run that never ends these are the finite parts.
inductive Code (ι ω α : Type) where
  | ret (value : α)
  | fetch (address : ι) (next : UInt8 → Code ι ω α)
  | store (address : ι) (byte : UInt8) (next : Code ι ω α)
  | note (event : ω) (next : Code ι ω α)

namespace Code

variable {ι ω α β : Type}

def andThen : Code ι ω α → (α → Code ι ω β) → Code ι ω β
  | ret value, f => f value
  | fetch address next, f => fetch address fun byte => andThen (next byte) f
  | store address byte next, f => store address byte (andThen next f)
  | note event next, f => note event (andThen next f)

instance : Monad (Code ι ω) where
  pure := ret
  bind := andThen

def emit (event : ω) : Code ι ω Unit := note event (ret ())

-- All accesses of the program are to these addresses, and its result meets a condition.
def Touches (allowed : ι → Prop) (post : α → Prop) : Code ι ω α → Prop
  | ret value => post value
  | fetch address next => allowed address ∧ ∀ byte, Touches allowed post (next byte)
  | store address _ next => allowed address ∧ Touches allowed post next
  | note _ next => Touches allowed post next

theorem Touches.bind {allowed : ι → Prop} {mid : α → Prop} {post : β → Prop} {p : Code ι ω α}
    {f : α → Code ι ω β} (hp : Touches allowed mid p)
    (hf : ∀ value, mid value → Touches allowed post (f value)) :
    Touches allowed post (p >>= f) := by
  induction p with
  | ret value => exact hf value hp
  | fetch address next ih => exact ⟨hp.1, fun byte => ih byte (hp.2 byte)⟩
  | store address byte next ih => exact ⟨hp.1, ih hp.2⟩
  | note event next ih => exact ih hp

theorem Touches.emit_bind {allowed : ι → Prop} {post : β → Prop} {event : ω}
    {f : Unit → Code ι ω β} (hf : Touches allowed post (f ())) :
    Touches allowed post (emit event >>= f) :=
  hf

-- Whatever the program fetches, its notes and its result meet a condition.
def Notes (post : List ω → α → Prop) : Code ι ω α → Prop
  | ret value => post [] value
  | fetch _ next => ∀ byte, Notes post (next byte)
  | store _ _ next => Notes post next
  | note event next => Notes (fun events => post (event :: events)) next

theorem Notes.mono {post weaker : List ω → α → Prop} {p : Code ι ω α} (hp : Notes post p)
    (h : ∀ events value, post events value → weaker events value) : Notes weaker p := by
  induction p generalizing post weaker with
  | ret value => exact h [] value hp
  | fetch address next ih => exact fun byte => ih byte (hp byte) h
  | store address byte next ih => exact ih hp h
  | note event next ih => exact ih hp fun events value => h (event :: events) value

theorem Notes.bind {mid : List ω → α → Prop} {post : List ω → β → Prop} {p : Code ι ω α}
    {f : α → Code ι ω β} (hp : Notes mid p)
    (hf : ∀ events value, mid events value → Notes (fun later => post (events ++ later)) (f value)) :
    Notes post (p >>= f) := by
  induction p generalizing mid post with
  | ret value => exact hf [] value hp
  | fetch address next ih => exact fun byte => ih byte (hp byte) hf
  | store address byte next ih => exact ih hp hf
  | note event next ih => exact ih hp fun events value hmid => hf (event :: events) value hmid

theorem Notes.emit_bind {post : List ω → β → Prop} {event : ω} {f : Unit → Code ι ω β}
    (hf : Notes (fun later => post (event :: later)) (f ())) : Notes post (emit event >>= f) :=
  hf

end Code

abbrev Contents (ι : Type) : Type := ι → UInt8

-- What the other party makes of the contents before the n-th access.
abbrev World (ι : Type) : Type := Nat → Contents ι → Contents ι

def World.quiet {ι : Type} : World ι := fun _ contents => contents

inductive Seen (ι ω : Type) where
  | fetched (address : ι) (byte : UInt8)
  | stored (address : ι) (byte : UInt8)
  | noted (event : ω)
  deriving DecidableEq

section Run

variable {ι ω α : Type} [DecidableEq ι]

-- Everything the program does, in order, and its result.
def run (world : World ι) : Nat → Contents ι → Code ι ω α → List (Seen ι ω) × α
  | _, _, .ret value => ([], value)
  | n, contents, .fetch address next =>
      let byte := world n contents address
      let rest := run world (n + 1) (world n contents) (next byte)
      (.fetched address byte :: rest.1, rest.2)
  | n, contents, .store address byte next =>
      let rest := run world (n + 1) (Function.update (world n contents) address byte) next
      (.stored address byte :: rest.1, rest.2)
  | n, contents, .note event next =>
      let rest := run world n contents next
      (.noted event :: rest.1, rest.2)

-- The program's own notes in a run.
def notes : List (Seen ι ω) → List ω
  | [] => []
  | .noted event :: rest => event :: notes rest
  | .fetched _ _ :: rest => notes rest
  | .stored _ _ :: rest => notes rest

theorem Code.Notes.run {post : List ω → α → Prop} {p : Code ι ω α} (hp : p.Notes post)
    (world : World ι) (n : Nat) (contents : Contents ι) :
    post (notes (run world n contents p).1) (run world n contents p).2 := by
  induction p generalizing n contents post with
  | ret value => exact hp
  | fetch address next ih => exact ih _ (hp _) (n + 1) (world n contents)
  | store address byte next ih => exact ih hp (n + 1) _
  | note event next ih => exact ih hp n contents

-- Replays a run against the other party: every byte that was fetched in it is still there
-- when its turn comes, given the stores of the run before.
def Unchanged (world : World ι) : Nat → Contents ι → List (Seen ι ω) → Prop
  | _, _, [] => True
  | n, contents, .fetched address byte :: rest =>
      world n contents address = byte ∧ Unchanged world (n + 1) (world n contents) rest
  | n, contents, .stored address byte :: rest =>
      Unchanged world (n + 1) (Function.update (world n contents) address byte) rest
  | n, contents, .noted _ :: rest => Unchanged world n contents rest

-- A run goes like another one exactly when the bytes that the other fetched are still there.
theorem run_eq_iff (world reference : World ι) (n : Nat) (contents other : Contents ι)
    (p : Code ι ω α) :
    run world n contents p = run reference n other p ↔
      Unchanged world n contents (run reference n other p).1 := by
  induction p generalizing n contents other with
  | ret value => simp [run, Unchanged]
  | fetch address next ih =>
      have hnext := ih (reference n other address) (n + 1) (world n contents) (reference n other)
      simp only [run, Unchanged]
      constructor
      · intro h
        obtain ⟨hseen, hvalue⟩ := Prod.mk.inj h
        obtain ⟨hfetched, hrest⟩ := List.cons.inj hseen
        have hbyte : world n contents address = reference n other address :=
          (Seen.fetched.inj hfetched).2
        rw [hbyte] at hrest hvalue
        exact ⟨hbyte, hnext.mp (Prod.ext hrest hvalue)⟩
      · rintro ⟨hbyte, hrest⟩
        rw [hbyte, hnext.mpr hrest]
  | store address byte next ih =>
      have hnext := ih (n + 1) (Function.update (world n contents) address byte)
        (Function.update (reference n other) address byte)
      simp only [run, Unchanged, ← hnext]
      constructor
      · intro h
        obtain ⟨hseen, hvalue⟩ := Prod.mk.inj h
        exact Prod.ext (List.cons.inj hseen).2 hvalue
      · intro h
        rw [h]
  | note event next ih =>
      simp only [run, Unchanged, ← ih n contents other]
      constructor
      · intro h
        obtain ⟨hseen, hvalue⟩ := Prod.mk.inj h
        exact Prod.ext (List.cons.inj hseen).2 hvalue
      · intro h
        rw [h]

-- A run starts with the run of its first part.
theorem Unchanged.of_bind {β : Type} {world reference : World ι} {n : Nat}
    {contents other : Contents ι} (p : Code ι ω α) (f : α → Code ι ω β)
    (h : Unchanged world n contents (run reference n other (p >>= f)).1) :
    Unchanged world n contents (run reference n other p).1 := by
  induction p generalizing n contents other with
  | ret value => trivial
  | fetch address next ih => exact ⟨h.1, ih _ h.2⟩
  | store address byte next ih => exact ih h
  | note event next ih => exact ih h

-- The bytes of a run of its own are there for a party that changes nothing from then on.
theorem unchanged_of_silent {world : World ι} {start : Nat}
    (hworld : ∀ n, start ≤ n → ∀ contents, world n contents = contents) (p : Code ι ω α) (n : Nat)
    (hn : start ≤ n) (contents : Contents ι) :
    Unchanged world n contents (run World.quiet n contents p).1 := by
  induction p generalizing n contents with
  | ret value => trivial
  | fetch address next ih =>
      simp only [run, Unchanged, World.quiet, hworld n hn]
      exact ⟨trivial, ih _ (n + 1) (by omega) contents⟩
  | store address byte next ih =>
      simp only [run, Unchanged, World.quiet, hworld n hn]
      exact ih (n + 1) (by omega) _
  | note event next ih => exact ih n hn contents

-- A program is safe from a party that leaves the addresses it touches alone.
theorem run_eq_quiet {allowed : ι → Prop} {world : World ι}
    (hworld : ∀ n contents address, allowed address → world n contents address = contents address)
    (p : Code ι ω α) {post : α → Prop} (hp : p.Touches allowed post) (n : Nat)
    (contents other : Contents ι)
    (hsame : ∀ address, allowed address → contents address = other address) :
    run world n contents p = run World.quiet n other p := by
  induction p generalizing n contents other with
  | ret value => rfl
  | fetch address next ih =>
      have hbyte : world n contents address = other address :=
        (hworld n contents address hp.1).trans (hsame address hp.1)
      have hrest := ih (other address) (hp.2 _) (n + 1) (world n contents) other fun a ha =>
        (hworld n contents a ha).trans (hsame a ha)
      simp only [run, World.quiet, hbyte]
      rw [hrest]
  | store address byte next ih =>
      have hrest := ih hp.2 (n + 1) (Function.update (world n contents) address byte)
        (Function.update other address byte) fun a ha => by
          by_cases heq : a = address
          · rw [heq, Function.update_self, Function.update_self]
          · rw [Function.update_of_ne heq, Function.update_of_ne heq]
            exact (hworld n contents a ha).trans (hsame a ha)
      simp only [run, World.quiet]
      rw [hrest]
  | note event next ih =>
      simp only [run]
      rw [ih hp n contents other hsame]

end Run

end Watz.Base.Shared
