/-
# The vocabulary

The words that may stand in brackets and the kinds they name. Some kinds have two spellings; the
first is the one messages use. Words are looked up without regard to the case of ASCII letters.

Key definitions: `Kind.vocabulary`, `Kind.ofWord?`, `Kind.name`.
-/
import BulletinBoard.Template.Kind
import BulletinBoard.Text.Letters

namespace BulletinBoard.Template.Kind

open Text

/-- The words the board acts on. -/
def supportedWords : List (String × Kind) := [
  ("black", .color .black), ("blue", .color .blue), ("green", .color .green),
  ("cyan", .color .cyan), ("red", .color .red), ("magenta", .color .magenta),
  ("brown", .color .brown), ("gray", .color .gray), ("grey", .color .gray),
  ("darkgray", .color .darkGray), ("darkgrey", .color .darkGray), ("lightblue", .color .lightBlue),
  ("lightgreen", .color .lightGreen), ("lightcyan", .color .lightCyan),
  ("lightred", .color .lightRed), ("lightmagenta", .color .lightMagenta),
  ("yellow", .color .yellow), ("white", .color .white), ("blink", .control .blink),
  ("bright", .control .bright), ("dim", .control .dim), ("fg", .foreground), ("load", .loadColor),
  ("save", .saveColor), ("steady", .control .steady), ("bell", .control .bell),
  ("bs", .control .backspace), ("cleol", .control .clearLine), ("cleos", .control .clearBelow),
  ("cls", .control .clearScreen), ("cr", .control .carriageReturn), ("down", .control .down),
  ("left", .control .left), ("lf", .control .lineFeed), ("locate", .locate), ("tab", .control .tab),
  ("right", .control .right), ("up", .control .up), ("city", .fact .city), ("date", .fact .date),
  ("dl", .fact .downloads), ("file_carea", .fact .fileArea), ("fname", .fact .firstName),
  ("ip", .fact .ipAddress), ("lastcall", .fact .lastCall), ("lastuser", .fact .lastUser),
  ("minutes", .fact .minutesOnline), ("msg_carea", .fact .messageArea),
  ("node_num", .fact .nodeNumber), ("phone", .fact .phone), ("ratio", .fact .ratio),
  ("realname", .fact .realName), ("remain", .fact .minutesRemaining), ("response", .response),
  ("syscall", .fact .systemCalls), ("sys_name", .fact .systemName),
  ("sysop_name", .fact .sysopName), ("time", .fact .time), ("timeoff", .fact .timeOff),
  ("ul", .fact .uploads), ("user", .fact .userName), ("usercall", .fact .userCalls),
  ("ansreq", .prompt .answerRequired), ("choice", .prompt .choice), ("menu", .prompt .menu),
  ("readln", .prompt .readLine), ("acs", .privilegeGate .acs), ("access", .privilegeGate .access),
  ("acsfile", .privilegeGate .acsFile), ("accessfile", .privilegeGate .accessFile),
  ("priv_abbrev", .classAbbreviation), ("priv_desc", .className),
  ("priv_level", .fact .privilegeLevel), ("color", .factGate .color), ("colour", .factGate .color),
  ("expert", .factGate .expert), ("exit", .halt .exit), ("goto", .goto),
  ("islocal", .factGate .isLocal), ("isremote", .factGate .isRemote), ("jump", .jump),
  ("label", .declareLabel), ("nocolor", .factGate .noColor), ("nocolour", .factGate .noColor),
  ("novice", .factGate .novice), ("regular", .factGate .regular), ("top", .top),
  ("comment", .comment), ("enter", .prompt .enter), ("hangup", .halt .hangup),
  ("include", .includes), ("quit", .halt .quit), ("repeatseq", .repeatSequence)]

/-- The words the board knows and does not act on. -/
def unsupportedWords : List String := [
  "bg", "on", "sysopbell", "alist_file", "alist_msg", "expiry_date", "expiry_time", "file_cname",
  "file_darea", "file_sarea", "first", "length", "msg_cmsg", "msg_cname", "msg_darea", "msg_hmsg",
  "msg_nummsg", "msg_sarea", "netbalance", "netcredit", "netdebit", "netdl", "ansopt",
  "leave_comment", "open", "post", "sopen", "store", "write", "priv_down", "priv_up", "setpriv",
  "ifkey", "notkey", "keyon", "keyoff", "1200", "2400", "9600", "col80", "endcolor", "endrip",
  "filenew", "hotkeys", "ifentered", "ifexist", "iffse", "iffsr", "iflang", "iftask", "iftime",
  "incity", "maxed", "msg_attr", "msg_conf", "msg_echo", "msg_fileattach", "msg_local",
  "msg_matrix", "msg_next", "msg_nomsgs", "msg_nonew", "msg_noread", "msg_prior", "no_keypress",
  "norip", "nostacked", "notontoday", "permanent", "rip", "riphasfile", "tagged", "apb",
  "chat_avail", "chat_notavail", "who_is_on", "ripdisplay", "rippath", "ripsend", "textsize",
  "ckoff", "ckon", "clear_stacked", "copy", "delete", "display", "dos", "ibmchars", "key_poke",
  "language", "link", "log", "menu_cmd", "menupath", "mex", "more", "moreoff", "moreon",
  "msg_checkmail", "newfiles", "onexit", "pause", "quote", "repeat", "tag_read", "tag_write",
  "tune", "xtern_dos", "xtern_erlvl", "xtern_run"]

/-- Every word with its kind. -/
def vocabulary : List (String × Kind) :=
  supportedWords ++ unsupportedWords.map (fun w => (w, .unsupported w)) ++
    [("endcolour", .unsupported "endcolor")]

/-- The kind a word names, in any letter case. -/
def ofWord? (word : String) : Option Kind :=
  vocabulary.lookup (foldCase word)

/-- The word that messages use for a kind. Literal text and labels have names of their own, which
are no words. -/
def name : Kind → String
  | text => "string"
  | label => "/label"
  | kind =>
    match vocabulary.find? fun entry => entry.2 == kind with
    | some entry => entry.1
    | none => "unknown"

end BulletinBoard.Template.Kind
