import Candlestick.Token

namespace Candlestick.Token

variable {β γ : Type}

@[simp] theorem cancelled_cancel (token : Token) : token.cancel.cancelled = true := rfl

-- The results of all operations, and the token after the last.
def thread (operate : β → Token → γ × Token) (token : Token) : List β → List γ × Token
  | [] => ([], token)
  | x :: rest =>
    let (result, token) := operate x token
    let (results, token) := thread operate token rest
    (result :: results, token)

-- The token after all operations.
def through (operate : β → Token → γ × Token) (token : Token) (xs : List β) : Token :=
  xs.foldl (fun token x => (operate x token).2) token

variable (operate : β → Token → γ × Token)

theorem thread_cons (token : Token) (x : β) (rest : List β) :
    thread operate token (x :: rest) =
      ((operate x token).1 :: (thread operate (operate x token).2 rest).1,
        (thread operate (operate x token).2 rest).2) := rfl

theorem snd_thread (token : Token) (xs : List β) :
    (thread operate token xs).2 = through operate token xs := by
  induction xs generalizing token with
  | nil => rfl
  | cons x rest ih => exact ih (operate x token).2

theorem fst_thread_append (token : Token) (xs ys : List β) :
    (thread operate token (xs ++ ys)).1 =
      (thread operate token xs).1 ++ (thread operate (through operate token xs) ys).1 := by
  induction xs generalizing token with
  | nil => rfl
  | cons x rest ih => exact congrArg ((operate x token).1 :: ·) (ih (operate x token).2)

@[simp] theorem length_fst_thread (token : Token) (xs : List β) :
    (thread operate token xs).1.length = xs.length := by
  induction xs generalizing token with
  | nil => rfl
  | cons x rest ih => exact congrArg Nat.succ (ih (operate x token).2)

-- What an operation gives depends on those before it through the token alone.
theorem getElem?_fst_thread (token : Token) (xs : List β) (i : Nat) :
    (thread operate token xs).1[i]? =
      xs[i]?.map fun x => (operate x (through operate token (xs.take i))).1 := by
  induction xs generalizing token i with
  | nil => rfl
  | cons x rest ih =>
      cases i with
      | zero => rfl
      | succ i => exact ih (operate x token).2 i

theorem take_fst_thread (token : Token) (xs : List β) (n : Nat) :
    (thread operate token xs).1.take n = (thread operate token (xs.take n)).1 := by
  induction xs generalizing token n with
  | nil => rw [List.take_nil]; exact List.take_nil
  | cons x rest ih =>
      cases n with
      | zero => rfl
      | succ n => exact congrArg ((operate x token).1 :: ·) (ih (operate x token).2 n)

-- Operations that leave the token as they find it are independent of one another.
theorem thread_eq_map {token : Token} {xs : List β} (h : ∀ x ∈ xs, (operate x token).2 = token) :
    thread operate token xs = (xs.map fun x => (operate x token).1, token) := by
  induction xs with
  | nil => rfl
  | cons x rest ih =>
      rw [thread_cons, h x List.mem_cons_self, ih fun y hy => h y (List.mem_cons_of_mem x hy)]
      rfl

-- Where an operation can do nothing to the token but cancel it, a sequence cannot either.
theorem through_eq {operate : β → Token → γ × Token} {cancels : β → Bool}
    (h : ∀ x token, (operate x token).2 = if cancels x then token.cancel else token)
    (token : Token) (xs : List β) :
    through operate token xs = if xs.any cancels then token.cancel else token := by
  induction xs generalizing token with
  | nil => rfl
  | cons x rest ih =>
      have hstep : through operate token (x :: rest) =
          through operate (operate x token).2 rest := rfl
      rw [hstep, ih, h, List.any_cons]
      cases cancels x <;> cases rest.any cancels <;> rfl

end Candlestick.Token
