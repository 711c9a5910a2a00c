import RsmpGateway.Auth.Pwd

/-!
# The log of saves

For each line that it writes, `auth_write` calls `log_auth_info`, which gives the same columns to
a shell, to be appended to `auth.db.log`:

    echo '[date] no;dbId;login;sId;$0$pwd;active;timestamp;newPwd;pending' >> auth.db.log

Nothing is escaped and the buffer holds 1023 bytes, so two things can go wrong. A quote in a login
ends the text of `echo`, and what follows is run. And a long command is cut: where the cut leaves
`>> auth.db`, the text is appended to the file that is being saved. The shell is not part of the
program; what it does to that file is a parameter, and it is only assumed that a command without
these two accidents (`Harmless`) leaves the file as it is.
-/

namespace RsmpGateway.Auth

open RsmpGateway.Lib RsmpGateway.Crypt

/-- What the log shows of a password: its BCD, or `*` for none. -/
def logPwd (pwd : AuthPwd) : Bytes := if pwd = [] then ascii "*" else bcdEncode pwd

/-- What `log_auth_info` lets `echo` print. `timestamp` is the text of the date of the entry. -/
def logText (date : Bytes) (no : Nat) (key : AuthKey) (auth : AuthEntry) (timestamp : Bytes) :
    Bytes :=
  ascii "[" ++ date ++ ascii "] " ++ [0x3B].intercalate
    [decimal no, key.dbId, key.login, key.sId, ascii "$0$" ++ logPwd auth.pwd,
      decimal auth.active.toNat, timestamp,
      logPwd (if auth.newPwdPending then auth.newPwd else []), decimal auth.newPwdPending.toNat]

/-- The end of the text, and where it goes. -/
def redirection : Bytes := ascii "' >> auth.db.log"

/-- The command for a text: what `snprintf` leaves of it in `command[1024]`. -/
def logCommand (text : Bytes) : Bytes := (ascii "echo '" ++ text ++ redirection).take 1023

/-- What follows the text of `echo` in a command, from its closing quote. -/
def afterText (command : Bytes) : Bytes := (command.drop 6).dropWhile (· ≠ 0x27)

/-- An `echo` of one text that has no quote in it, which is left alone, or printed, or appended to
another file than `auth.db`. -/
def Harmless (command : Bytes) : Prop :=
  ascii "echo '" <+: command ∧ afterText command <+: redirection ∧
    afterText command ≠ ascii "' >> auth.db"

instance (command : Bytes) : Decidable (Harmless command) :=
  inferInstanceAs (Decidable (_ ∧ _ ∧ _))

/-- What `system` makes of `auth.db`. -/
abbrev Shell := Bytes → Bytes → Bytes

/-- What is assumed of the shell. -/
def Shell.Lawful (sh : Shell) : Prop := ∀ command file, Harmless command → sh command file = file

/-- The shell that empties the file whenever a command is not harmless. -/
def emptyingShell : Shell := fun command file => if Harmless command then file else []

theorem emptyingShell_lawful : emptyingShell.Lawful := by
  intro command file h
  exact if_pos h

/-- A text without a quote makes a harmless command, unless the cut falls behind `>> auth.db`. -/
theorem harmless_logCommand {text : Bytes} (hquote : (0x27 : UInt8) ∉ text)
    (hcut : text.length ≠ 1005) : Harmless (logCommand text) := by
  have hplain : ∀ n, ∀ c ∈ text.take n, (c ≠ 0x27 : Bool) = true := by
    intro n c hc
    have hne : c ≠ 0x27 := by
      rintro rfl
      exact hquote (List.mem_of_mem_take hc)
    simpa using hne
  have hcommand : logCommand text =
      ascii "echo '" ++ (text.take 1017 ++ redirection.take (1017 - text.length)) := by
    rw [logCommand, List.append_assoc, List.take_append, List.take_append]
    rfl
  have hafter : afterText (logCommand text) = redirection.take (1017 - text.length) := by
    rw [afterText, hcommand, List.drop_left' (by rfl), List.dropWhile_append_of_pos (hplain _)]
    cases 1017 - text.length <;> rfl
  refine ⟨?_, ?_, ?_⟩
  · rw [hcommand]
    exact List.prefix_append _ _
  · rw [hafter]
    exact List.take_prefix _ _
  · intro h
    have hlen := congrArg List.length (hafter.symm.trans h)
    have h16 : redirection.length = 16 := by decide
    have h12 : (ascii "' >> auth.db").length = 12 := by decide
    rw [List.length_take, h16, h12] at hlen
    omega

end RsmpGateway.Auth
