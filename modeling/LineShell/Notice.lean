import LineShell.Command.Printer
import LineShell.Command.Error
import LineShell.Failure
import LineShell.Level
import LineShell.Status

namespace LineShell

/-!
# Records of the log

* `Notice` — what the shell and its processes report about themselves.
* `Notice.level`, `Notice.text` — how serious a record is and its wording.
-/

/-- What the shell and its processes report about themselves. -/
inductive Notice where
  /-- A line held no command. -/
  | blankCommand
  /-- A command is about to run. -/
  | executing (command : Command)
  /-- The process of a line was started. -/
  | lineStarted (pid : Pid)
  /-- The process of a line ended. -/
  | lineEnded (status : ChildStatus)
  /-- A program is about to take the place of the process. -/
  | launching (argv : List String)
  /-- Both sides of a pipe were started. -/
  | pipeStarted (left right : Pid)
  /-- The process of a redirect was started. -/
  | redirectStarted (pid : Pid) (direction : Direction) (path : String)
  /-- An end of a pipe could not be closed. -/
  | closeFailed (descriptor : Descriptor) (errno : Errno)
  /-- A child inside a command did not succeed. -/
  | abnormalEnd (status : ChildStatus)
  /-- A process failed. -/
  | failed (failure : Failure)
  /-- The process of a line could not be started or waited for. -/
  | lineFailed (failure : Failure)
  /-- A line was rejected. -/
  | rejected (line : String) (error : ParseError)
  /-- A line was read as a command. -/
  | accepted (command : Command)
  /-- The working directory is about to change. -/
  | changingDirectory (target : String)
  /-- An alias without a name or without words is passed over. -/
  | blankAlias (name expansion : String)
  /-- An alias was defined. -/
  | aliasDefined (name : String) (words : List String)
  /-- The words of an alias cannot be told. -/
  | aliasUnreadable (entry : String)
  /-- An alias entry has no equals sign. -/
  | aliasWithoutEquals (entry : String)
  /-- The working directory has no name any more. -/
  | noCurrentDirectory
  /-- The log is kept at a level. -/
  | levelSet (level : Level)
  /-- The configuration was loaded. -/
  | configLoaded (directory : String)
  /-- The shell starts. -/
  | starting
  /-- Interrupts are left to the running command. -/
  | interruptsHandled
  /-- The history file could not be read. -/
  | historyUnreadable (path reason : String)
  /-- A line of the history file has an unknown escape. -/
  | historyLineBad (line : String)
  /-- The history file was read. -/
  | historyLoaded
  /-- The shell is ready for input. -/
  | ready
  /-- The user asked to leave. -/
  | quitting
  /-- The input ended. -/
  | inputEnded
  /-- A line could not be read. -/
  | readFailed (reason : String)
  /-- The history file could not be written. -/
  | historyUnsaved (reason : String)
  /-- The history file was written. -/
  | historySaved
  /-- The shell leaves. -/
  | leaving
  deriving DecidableEq

namespace Notice

/-- How serious a record is. -/
def level : Notice → Level
  | .failed _ | .lineFailed _ | .noCurrentDirectory | .readFailed _ | .historyUnsaved _ => .error
  | .closeFailed .. | .abnormalEnd _ | .blankAlias .. | .aliasUnreadable _
  | .aliasWithoutEquals _ | .historyUnreadable .. | .historyLineBad _ | .inputEnded => .warn
  | _ => .debug

/-- The wording of a record. -/
def text : Notice → String
  | .blankCommand => "空命令，跳过"
  | .executing command => "执行命令树: " ++ command.render
  | .lineStarted pid => "命令进程已启动: " ++ toString pid
  | .lineEnded status => "命令进程结束: " ++ toString status.pid ++ " " ++ status.text
  | .launching argv => "exec: " ++ quoteList argv
  | .pipeStarted left right => "管道进程已启动: " ++ toString left ++ " | " ++ toString right
  | .redirectStarted pid direction path =>
    "重定向进程已启动: " ++ toString pid ++ " " ++ direction.text ++ " " ++ path
  | .closeFailed descriptor errno =>
    "关闭管道描述符 " ++ toString descriptor ++ " 失败: " ++ errno.message
  | .abnormalEnd status => "子进程 " ++ toString status.pid ++ " 异常结束: " ++ status.text
  | .failed failure => failure.message
  | .lineFailed failure => "执行失败: " ++ failure.message
  | .rejected line error => "解析失败: " ++ quoteText line ++ " " ++ error.message
  | .accepted command => "解析结果: " ++ command.describe
  | .changingDirectory target => "切换目录: " ++ target
  | .blankAlias name expansion => "忽略空别名: " ++ quoteText name ++ "=" ++ quoteText expansion
  | .aliasDefined name words => "定义别名: " ++ name ++ " -> " ++ quoteList words
  | .aliasUnreadable entry => "无法解析别名 " ++ entry ++ ": missing closing quote"
  | .aliasWithoutEquals entry => "别名缺少 '=': " ++ entry
  | .noCurrentDirectory =>
    "forksh: PROMPT: env current_dir error: " ++ Errno.enoent.systemMessage
  | .levelSet level => "日志级别设置为: " ++ level.name
  | .configLoaded directory => "配置加载成功 " ++ directory
  | .starting => "初始化 forksh..."
  | .interruptsHandled => "已安装中断信号处理"
  | .historyUnreadable path reason => "无法加载历史记录: " ++ path ++ " " ++ reason
  | .historyLineBad line => "bad escaped line: " ++ line
  | .historyLoaded => "历史记录加载成功"
  | .ready => "forksh 准备就绪..."
  | .quitting => "收到 quit，退出 forksh..."
  | .inputEnded => "接收到 EOF 信号，退出 forksh..."
  | .readFailed reason => "发生错误: " ++ reason
  | .historyUnsaved reason => "保存历史记录失败: " ++ reason
  | .historySaved => "历史记录保存成功"
  | .leaving => "退出 forksh..."

end Notice

end LineShell
