/-!
# Words of vocabularies

The words that are one token in every family, as they are and with a blank or a capital in front.
-/

namespace PromptPack.Tokens

/-- The most frequent words, in the order of their ranks as far as it matters. -/
def frequentWords : List String := [
  "a b c d e f g h i j k l m n o p q r s t u v w x y z the and for with you that this from have not are",
  "was his her they will can has but all one out about more when time what which there would their been",
  "who new up if or so no in on at to of by an be do go he it is me my us we as am into other some than",
  "then first two also people after only over such year most like just make made use used using hello",
  "world good bad great small large big little long short high low left right next last old young early",
  "late own same different many much few each every both between under through before during without",
  "within against because while where why how here again once never always often still even well back",
  "down off away around along across near far now today day days week month hour minute second seconds",
  "night life man men woman women child children family friend friends house home school work job",
  "company business money market price cost state states city country government law case cases part",
  "parts place point points line lines number numbers name names word words letter letters page pages",
  "book books story news report reports list lists table tables row rows column columns file files",
  "folder path paths directory root source sources target code data type types value values key keys",
  "string strings text texts content contents message messages error errors warning info debug log logs",
  "test tests example examples sample default defaults option options setting settings config format",
  "formats version versions update updates create delete remove add get set put read write open close",
  "start stop begin end run load save send receive call return returns import export include exclude",
  "public private static final const let var int float double bool boolean char byte array object class",
  "function functions method methods struct enum trait impl match interface abstract package module",
  "main func fn def pub self super null none true false void else elif switch break continue loop yield",
  "async await try catch throw throws raise except finally print input output result results status",
  "count total sum max min size length width height index item items element elements node nodes tree",
  "leaf parent head tail top bottom previous current user users group groups role admin password token",
  "tokens prompt model models system server client request response session cookie cache memory disk",
  "cpu network host address email phone date title body header footer image images icon color font",
  "style styles script button form field label link links menu view views window frame screen display",
  "show hide click press mouse event events action actions handler callback listener thread process",
  "task tasks queue stack map filter reduce find search sort order select insert query database store",
  "storage record records id uuid hash random math lib util utils helper helpers core base common",
  "shared global local temp build install setup init project application app service services tool",
  "tools projects python java rust swift bash shell html css json xml yaml yes ok foo bar baz abc",
  "medium spaces space tab don leading trailing snake hi question answer problem idea reason fact",
  "change changes move play game games music video film art water air fire earth sun moon red green",
  "blue white black yellow dark light free full empty simple complex easy hard fast slow war peace love",
  "hate hope fear want need know think see look feel say said tell ask give take come came went keep",
  "help turn seem become leave bring happen provide believe allow meet pay learn understand follow",
  "speak spend grow win offer remember consider appear buy wait serve die stay fall cut reach kill",
  "remain com org net https http println encoding"]

/-- Further words, in the order of the alphabet. -/
def furtherWords : List String := [
  "dog dogs api apis accept access account achieve active activity actual actually added addition additional adult",
  "advance advantage advice affect africa african agency agent agree agreement aid aim alive allowed",
  "almost alone already although america american among amount analysis ancient animal animals",
  "announced annual another anti anybody anyone anything anyway apparently appeal append apply approach",
  "approved april area areas args argue argument argv arm arms army arrest arrive article artist asking",
  "assert assume assumed atlantic atomic attack attempt attempted attention attorney attribute",
  "attributes audience august auth author authority autocomplete available average avoid award aware",
  "awful baby backend background backup balance ball ban band bank based basic basis basketball battle",
  "beat beautiful became began beginning behavior behind being belief benchmark beneath benefit",
  "benefits beside besides best better beyond bill billion binary bind bird birth bit bits block blocks",
  "blood board boat bomb bond boot born boss bottle bought bound bounds box boy boys brain branch brand",
  "bread breath bridge brief bright britain british broad broke broken brother brought brown browser",
  "brush budget buffer buffers bug bugs building built bus busy bytes cake calculate calculated",
  "california callable called calm camera camp campaign canada cancer candidate cannot capable capacity",
  "capital captain capture car card care career careful carried carry cars cast cat caught cause caused",
  "causes cell cells center central century certain certainly chair challenge chance chances changed",
  "changing channel chapter character characters charge charged charges chart cheap check checked chief",
  "china chinese choice choose chose christmas chunk chunks church citizen citizens civil claim claims",
  "classic clean clear clearly climate climb clock clone closed closer closest clothes cloud club",
  "cluster cmd coach coast coffee cold collection collections college colon colors combat combination",
  "combined comes comfort coming command commands comment comments commercial commission commit commits",
  "committee communication community companies compare compared comparison competition compile compiled",
  "compiler complaint complete completed completely complicated component components compression",
  "computer concept concern concerned conclusion condition conditions conduct conference confidence",
  "configs configuration configure confirm conflict confused congress connect connected connection",
  "conservative considerable consistent console constant constants constitution construct construction",
  "constructor consts consumer contact contain contained container contains context continued contract",
  "contrast contribute control controlled controversial conversation convert cook cool coordinates",
  "coords copy corner corporate correct council counter countries county couple courage",
  "course court cover covered crazy cream created creates creating creation creative credit crew crime",
  "criminal crisis criteria critical cross crowd cry crypto ctx cultural culture cup curious currency",
  "currently cursor customer customers cutting cycle daemon daily damage dance danger dangerous dare",
  "dashboard dates daughter dead deal dealing dear death debate debt december decide decided",
  "decision declare decline decode decoder deep defeat defend defense defer define defined definitely",
  "definition degree delay delimiter deliver demand democratic department depend dependent depends",
  "deploy depth derive describe described describes description deserialize desert deserve design",
  "designed desire desk despite destroy destructor detail detailed details detect determine determined",
  "develop developed developer developers development device devices dialog dict died diet diff",
  "difference differences difficult difficulty digest digital dinner direct directed direction directly",
  "director dirs disabled disappear discover discovered discussion disease dispatch dist distance",
  "distribution district divide divided division docs doctor document documents does doing dollar",
  "dollars dom domain domestic done door dot doubt download downloaded draft drag drama draw drawing",
  "dream dress drew drink drive driven driver drop dropped drug drugs dry due dump dust duty dynamic",
  "eager earlier earn ears easier easily east eastern eat echo economic economy edge edges edit editor",
  "education effect effective effects effort efforts egg eight eighteen election electric electronic",
  "eleven eliminate embedded emergency emit emotional employee employees employment enable enabled",
  "encode encoded encounter encourage ended ending endpoint enemy energy engage engine engineer",
  "engineering english enjoy enormous enough ensure enter entered entering enterprise entire entirely",
  "entity entrance entry enumerate env environment environmental episode epoch eq equal equally",
  "equipment equivalent era escape especially essential essentially establish established est estate",
  "estimate estimated etc ethnic europe european eval evaluate evaluation evening eventually everybody",
  "everyone everything everywhere evidence evil evolution exact exactly examine excellent exception",
  "excited exciting exclusive excuse exec executable execute executed execution executive exercise",
  "exist existed existence existing exists exit expand expect expectations expected expensive",
  "experience experienced experiences experiment expert experts explain explained explicit explore",
  "expose exposed expr express expressed expression extend extended extends extension extensive extent",
  "external extra extract extreme extremely eye eyes face faced facilities facing factor factors",
  "factory facts fail failed failing failure fair fairly faith fallback fallen falls familiar families",
  "famous fan fans fantasy farm farmer farmers fashion faster fat fatal father fault favor favorite",
  "feature features february federal feedback feeling feelings feet fellow felt female fetch fields",
  "fifteen fifth fifty fight fighter fighting figure figures filed filename filenames filepath filled",
  "filling filters finance financial finding findings finds fine finger fingers finish finished fired",
  "firm firms fiscal fish fishing fit fitness five fix fixed fixture flag flags flash flat flavor",
  "flexible flight floating floor flow flower flowers fly flying fmt focus focused fold folks followed",
  "following follows food foot football forced forces foreach foreign forest forever forget forgot fork",
  "formal formatted formatter formed former forms formula forth fortune forum forward found foundation",
  "founded founder four fourth fox fragment framework france  freedom french frequency",
  "frequent frequently fresh friday friendly front frontend fruit fuel fully fun functional fund",
  "fundamental funding funds funny furniture further future gain gained gallery gaming gap garden gas",
  "gate gather gathered gave gay gender gene general generally generate generated generates generation",
  "generator genetic gentle genuine german germany getting giant gift girl girls given gives giving",
  "glad glance glass glob globals goal goals god goes going gold golden gone gotten governor grab grade",
  "gradually graduate grammar grand grant granted graph graphic graphics grass grateful greater",
  "greatest greatly greek grep grey grid gross ground grounds grouped growing grown growth guarantee",
  "guard guess guest gui guide guidelines guilty guitar gun guns guy guys gzip habit hadn hair half",
  "hall hand handed handle handled handles handling hands hang happened happening happens happy harder",
  "hardly hardware harm hashes hasn hat haven having headed headers heading heads health healthy heap",
  "hear heard hearing heart heat heaven heavily heavy heights held hell helped helpful helping helps",
  "hence hero herself hex hidden higher highest highlight highly highway hill himself hint hints hip",
  "hire hired historic historical history hit hits hitting hold holder holding holds hole holiday",
  "holidays holy homes honest honestly honor hook hooks hop hoped hopes hoping horizontal horse horses",
  "hospital hosted hosting hot hotel hotels hours household housing however href hub huge human humans",
  "humor hundred hundreds hung hunt hunter hunting hurt husband hybrid ice icons ideal ideas identical",
  "identified identify identity idx iframe ignore ignored illegal illness",
  "illustrated imagine img immediate immediately immigration immutable impact implement implementation",
  "implemented implementing implements implications importance important imported imports impossible",
  "impressed impression impressive improve improved improvement inches incident included includes",
  "including income incorrect increase increased increases increasing incredible incredibly indeed",
  "indent independent indexes india indian indicate indicated indicates individual individuals",
  "industrial industry infection influence inform information initial initialize initially initiative",
  "injured injury inline inner innocent innovation inputs inquiry inserted inside insight inspect",
  "inspired installation installed instance instanceof instances instant instead institute institution",
  "institutions instruction instructions instrument insurance integer integers intellectual",
  "intelligence intelligent intended intense intent intention interact interaction interest interested",
  "interesting interests interfaces internal international internet interpretation interpreter",
  "interview introduced introduction invalid invest investigate investigation investment investors",
  "invited invoke involve involved involves io iran iraq iron island islands isn issue issued issues",
  "italian italy iterate iterator itself jacket january japan japanese javascript jersey jobs join",
  "joined joining joint joke journal journalist journey joy judge judges judgment juice july jump",
  "jumped jumping jumps june junior jury justice justify keen keeping keeps kept kernel keyboard",
  "keyword keywords kick kid kids killed killer killing kind kinds king kingdom kings kiss kitchen knee",
  "knew knife knock knowing knowledge known knows korea korean lab labor lack lacking lady laid lake",
  "lane lang language languages laptop largely larger largest laser later latest latin latter laugh",
  "launch launched laws lawyer lawyers layer layers layout lazy lead leader leaders leadership leads",
  "league learned learning least leather leaving lecture led legacy legal legend legislation len lens",
  "less lesson lessons letting levels lexer liberal liberty library lie lies lifecycle lifetime",
  "lift lighting lightly likely limit limited limits linear linked linking lint linter lion lips liquid",
  "listed listen listening listing literal literally literals literary literature lived lives living",
  "loaded loading loads loan loans locale located location locations lock locked locks logger logging",
  "logic logical login logo lonely longer looked looking looks loops loose lord lose loses losing loss",
  "losses lost lot lots loud loved lovely lover lower luck lucky lunch luxury machine machines macro",
  "macros mad magazine magic mail mainly maintain maintained maintenance major majority makefile maker",
  "makers makes making male malloc manage managed management manager managers managing manifest manner",
  "manual manufacturer manufacturers manufacturing mapping march margin mark markdown marked marketing",
  "markets marks marriage married mask mass massive master matched matches matching mate material",
  "materials matrix matter matters maximum maybe mayor meal meals meaning meanings means meant measure",
  "measured measurement measures meat mechanism media medical medicine mediterranean meeting meetings",
  "member members membership memories mental mention mentioned mere merely merge mess met metadata",
  "metal meters metric metrics mexican mexico mid middle middleware midnight might mighty migrate",
  "migration military milk million millions mind minds mine minimal minimum minister ministry minor",
  "minority minus minutes mirror mission mistake mistakes mix mixed mixture mobile mock mod mode",
  "moderate modern modes modified modify modules mom moment moments monday monitor monitoring monster",
  "monthly months mood moral moreover morning mostly mother motion motor mount mountain mountains mouth",
  "moved movement movements moves movie movies moving multi multiple murder muscle museum musical mut",
  "mutable mutex mutual myself mystery named namely namespace narrative narrow nation national nations",
  "native natural naturally nature nav naval navigate navigation navy nearby nearest nearly necessarily",
  "necessary neck needed needs negative neighbor neighborhood neighbors neither nested networks neutral",
  "nevertheless newly newspaper nice nil nine ninth nobody noise nor normal normally north northern",
  "nose notable note noted notes nothing notice noticed notification notion novel november nowhere",
  "nuclear nullable num numeric numerous nurse oak obj objective objects obligation observation observe",
  "observed obtain obtained obvious obviously occasion occasionally occupied occur occurred occurs",
  "ocean october odd odds offered offering offers office officer officers offices official officially",
  "officials offset oil okay older olympic omitted ones ongoing online onto opcode opened opening opens",
  "opera operand operate operated operating operation operations operator operators opinion opinions",
  "opportunities opportunity opposed opposite opposition optimal optional opts orange orders ordinary",
  "organ organic organization organizations organized others otherwise ought ourselves outcome outcomes",
  "outdoor outer outlook outputs outside overall overcome overflow override overview owned owner owners",
  "ownership oxygen pace pacific pack packages packed packet pad padding paid pain painful paint",
  "painted painting pair pairs pale panel panic pants paper papers parallel param parameter parameters",
  "params parents paris park parking parliament parse parsed parser parsing partial participate",
  "particular particularly parties partner partners partnership passage passed passenger passengers",
  "passes passing passion past patch patent pathway patience patient patients pattern patterns pause",
  "payload payment payments peak peer pen penalty pending pennsylvania pension percent percentage",
  "perfect perfectly perform performance performed performing perhaps period periods permanent",
  "permission permissions permit permitted persistent person personal personality personally personnel",
  "persons perspective phase phenomenon philosophy phones photo photograph photographs photos phrase",
  "physical physically physics piano pick picked picking picks picture pictures pie piece pieces pile",
  "pilot pin pink pipe pipeline pitch pixel pixels pizza placed places placing plain plan plane planet",
  "planned planning plans plant plants plastic plate platform platforms played player players playing",
  "plays plaza plenty plot plug plugin plugins plus png pocket podcast poem poet poetry pointed pointer",
  "pointing police policies policy political politically politicians politics poll polls pool poor pop",
  "popular popularity population popup portion portrait pose position positions positive possess",
  "possession possibilities possibility possible possibly post posted poster posting posts pot",
  "potential potentially pound pounds pour poverty powder power powered powerful powers practical",
  "practically practice practices pray prayer precise precisely predict predicted prediction prefer",
  "preference preferences preferred prefix pregnancy pregnant premium preparation prepare prepared",
  "preparing preprocess presence present presentation presented presents preserve president",
  "presidential presidents pressed pressing pressure presumably pretty prevent preview previously",
  "prices pride priest primarily primary prime primitive prince princess principal principle principles",
  "printed printer printing prior priorities priority prison prisoner prisoners privacy privilege prize",
  "pro probability probable probably probe problems procedure procedures proceed proceedings processed",
  "processes processing processor prod produce produced producer producers produces producing product",
  "production products professional professionals professor profile profiles profit profits program",
  "programme programming programs progress progressive prohibited prominent promise promised promises",
  "promote promoted promotion proof prop proper properly properties property proportion proposal",
  "proposals propose proposed props protect protected protecting protection protein protest protests",
  "proto protocol protocols prototype proud prove proved proven provided provider providers provides",
  "providing province provision provisions proxy ptr publication publications publicly published",
  "publisher publishers pull pulled pulling pump pupils purchase purchased pure purely purple purpose",
  "purposes pursue push pushed pushing puts putting py quality quantities quantity quarter quarters",
  "queen queries quest questions quick quickly quiet quietly quite quota quote quoted rabbit",
  "race races racial racing radical radio rail rain raised raises raising ran rand range ranges ranging",
  "rank ranked ranking rapid rapidly rare rarely rate rated rates rather rating ratings ratio rational",
  "raw ray reached reaches reaching react reaction reactions reader readers readily reading readme",
  "readonly reads ready real realistic reality realize realized really realm rear reasonable reasonably",
  "reasons rebase rebel recall receipt received receiver receives receiving recent recently recipe",
  "recipes recognition recognize recognized recommend recommendation recommendations recommended",
  "recorded recorder recording recordings recover recovered recovery recursive recv redirect reduced",
  "reducer reduces reducing reduction ref refer reference referenced references referred refers reflect",
  "reflected reflection reflects reform reforms refresh refs refugees refuse refused regard regarded",
  "regarding regardless regex regexp region regional regions register registered registration registry",
  "regret regular regularly regulation regulations regulatory reject rejected relate related relates",
  "relating relation relations relationship relationships relative relatively relatives relax release",
  "released releases relevant reliable relief religion religious reload remained remaining remains",
  "remarkable remembered reminder remote removal removed removes removing render rendered rendering",
  "rent repair repeat repeated repeatedly replace replaced replacement replied replies reply repo",
  "reported reportedly reporter reporters reporting repos repository represent representation",
  "representative representatives represented representing represents republic republican republicans",
  "reputation requested requests require required requirement requirements requires requiring rescue",
  "research researcher researchers reserve reserved reset resident residential residents resist",
  "resistance resolution resolve resolved resolver resort resource resources respect respected",
  "respective respectively respond responded responses responsibilities responsibility responsible rest",
  "restaurant restaurants restore restored restrict restricted restriction restrictions resulted",
  "resulting resume retail retain retained retired retirement retrieve retrieved retry returned",
  "returning reveal revealed reveals revenue reverse review reviewed reviews revised revision",
  "revolution revolutionary reward rewards rich rid ride rider riding rifle rights ring rise rises",
  "rising risk risks river rivers rm road roads robot robots rock rocks roles roll rolled rolling roman",
  "romantic rome roof room rooms rose rotation rough roughly round rounded rounds route router routes",
  "routine royal rpc rugby ruin rule ruled rules ruling rumors running runs runtime rural rush russia",
  "russian sacred sacrifice sad safe safely safety sail sake salary sale sales salt samples san sand",
  "sanitize satisfaction satisfied satisfy saturday sauce saved saves saving savings saw saying says",
  "scalar scale scan scanner scenario scenarios scene scenes schedule scheduled schema scheme schemes",
  "scholar scholars scholarship schools science sciences scientific scientist scientists scope score",
  "scored scores scoring scottish scratch scream screaming screens scripts scroll sdk sea seal",
  "searching seat seats secret secretary section sections sector sectors secure secured security seeds",
  "seeing seeking seeks seemed seems seen segment segments selected selecting selection selector sell",
  "seller selling senate senator senators sender sending senior sense sensitive sensor sent sentence",
  "sentences separate separated separately separator september sequence sequences serial serialize",
  "serializer series serious seriously served servers serves serving sessions sets settle settled",
  "settlement seven seventh several severe severely shadow shadows shall shape shaped shapes share",
  "shares sharing sharp she shelter shift shifted shifts ship shipped shipping ships shirt shock",
  "shocked shoes shoot shooting shop shopping shops shore shorter shortly shot shots should shoulder",
  "shoulders shouldn showed showing shown shows shuffle shut sick side sides sight sign signal signals",
  "signature signed significance significant significantly signing signs silence silent silver similar",
  "similarly simpler simplify simply simulation simultaneously sin since sing singer singing single",
  "sink sir sister sisters sit site sites sitting situation situations six sixth sized sizes skill",
  "skills skin skip skipped sky sleep sleeping slice slide slight slightly slip slope slot slots slowly",
  "slug smart smell smile smoke smooth snap snapshot snow soccer social society socket soft software",
  "soil solar sold soldier soldiers sole solely solid solo solution solutions solve solved somebody",
  "somehow someone something sometimes somewhat somewhere son song songs sons soon sophisticated sorry",
  "sorted sorting sought soul sound sounded sounds soup south southeast southern soviet spain spanish",
  "spare spark speaker speakers speaking speaks spec special specialist specialized species specific",
  "specifically specification specifications specified specify specs spectrum speech speed speeds spell",
  "spelling spending spent spin spirit spirits spiritual spite splice split splitting spoke spoken",
  "spokesman sponsor sport sports spot spots spread spring sql squad square src ssh ssl stable stadium",
  "staff stage stages stairs stand standard standards standing stands star stare stared stars started",
  "starter starting starts startup stated statement statements station stations statistical statistics",
  "statue stays stderr stdin stdout steady steal steam steel stem step stepped steps stick sticks stock",
  "stocks stomach stone stones stood stopped stopping stops stored stores stories storing storm",
  "straight strange stranger strategic strategies strategy stream streaming streams street streets",
  "strength stress stretch strict strictly strike strikes striking strip stroke strong stronger",
  "strongest strongly struck structs structural structure structured structures struggle struggling",
  "stub stuck student students studied studies studio study studying stuff stupid subclass subdir",
  "subject subjects submitted submodule subprocess subscribe subscription subsequent",
  "subsequently substance substantial substitute substring subtle suburban succeed success successful",
  "successfully suddenly suffer suffered suffering sufficient suffix sugar suggest suggested suggesting",
  "suggestion suggestions suggests suit suitable suite summary summer summit sunday superior supplement",
  "supplied supplies supply support supported supporter supporters supporting supports suppose supposed",
  "supreme sure surely surface surfaces surgery surprise surprised surprising surprisingly surrounded",
  "surrounding survey surveys survival survive survived suspect suspected suspend suspended sustain",
  "sustained svg swap sweet swim swimming swing switched symbol symbols symlink symptoms sync syndrome",
  "syntax synthesis sys tackle tactics tag tags taken takes taking tale talent talk talked talking",
  "talks tall tank tap tape targeted targets taste taught tax taxes taxi tcp tea teach teacher teachers",
  "teaching team teams tears tech technical technically technique techniques technologies technology",
  "teenage telephone television telling tells temperature temperatures template templates temple",
  "temporarily temporary ten tend tends tennis tension tensor tenth term terminal terms terrible",
  "territories territory terror terrorism terrorist tested testing texas thank thanks theater theatre",
  "theme themes themselves theoretical theories theory therapy thereby therefore thick thin thing",
  "things thinking thinks third thirty thorough thought thoughts thousand thousands threads threat",
  "threatened threatening threats threshold throat throne throughout throwing thrown thursday thus",
  "ticket tickets tie tied ties tight till timeout timer times timestamp timing tiny tip tips tired",
  "titles tmp todo toe together toggle toilet told toml tomorrow tone tongue tonight tooth topic topics",
  "torn toss totally touch touched touching tough tour tourism tourist tourists tournament toward",
  "towards tower towers town towns toxic trace track tracked tracking tracks trade trader traders",
  "trades trading tradition traditional traffic tragedy trail trailer train trained trainer training",
  "trains traits transaction transactions transfer transferred transfers transform transformation",
  "transformed transition translate transmission transmitted transparent transport transportation",
  "transpose trap travel traveled travelers traveling travels traverse treat treated treating treatment",
  "treatments treaty trees tremendous trend trends trial trials tribal tribe trick tried tries trigger",
  "triggered trim trip triple trips troops tropical trouble troubled truck trucks truly trust trusted",
  "truth trying tube tuesday tune tunnel tuple turkey turkish turned turning turns twelve twenty twice",
  "twin twitch typed typedef typescript typical typically typing ugly ui ukraine ultimate ultimately",
  "unable unary uncertain uncertainty uncle undefined undergo understanding understood undertaken undo",
  "unexpected unfortunately unicode uniform unions unique unit united units unity universal universe",
  "university unknown unless unlike unlikely unsigned until untracked unusual updated updating upgrade",
  "upload upon upper upsert upset urban urge urged urgent uri url urls usage useful useless uses usual",
  "usually utf utilities utility vacation valid validate validation validator valley valuable valued",
  "variable variables variation variations variety various vars vary varying vast vector vegetables",
  "vehicle vehicles vendor venture venue verb verify versus vertex vertical very vessel veteran",
  "veterans via victim victims victory videos viewed viewer viewers viewing village villages violate",
  "violation violence violent virginia virtual virtually virtue virus visible vision visit visited",
  "visiting visitor visitors visits visual vital vm voice voices volatile volume volumes volunteer",
  "volunteers vote voted voter voters votes voting vulnerable wage wages waited waiting wake walk",
  "walked walking walks wall walls wanted wanting wants warm warned warnings warns warrant wars wash",
  "wasn waste watch watched watching wave waves wax ways weak weakness wealth wealthy weapon weapons",
  "wear wearing weather web website websites wedding wednesday weekend weekly weigh weight weights",
  "weird welcome welfare were weren west western wet whatever wheel wheels whenever whereas wherever",
  "whether whilst whisper whom whose wide widely wider widespread widget widow wife wild wildcard",
  "wilderness willing willingness wind windows wine wing wings winner winners winning wins winter wire",
  "wireless wisdom wise wish wished wishes witch withdraw withdrawal witness witnesses wolf won wonder",
  "wondered wonderful wondering wooden woods wore worker workers workflow working workplace works",
  "workshop workspace worlds worried worries worry worse worship worst worth worthy wouldn wound",
  "wounded wrap wrapped wrapper writer writers writes writing writings written wrong wrote yard yards",
  "yeah yearly years yelled yesterday yet yields york younger yours yourself youth zero zip zone zones"]

/-- Words that are one token in capitals. -/
def capitalizedWords : List String := [
  "SELECT FROM WHERE GROUP BY ORDER AND OR NOT IN IS NULL AS ON SET INTO VALUES UPDATE INSERT DELETE",
  "CREATE TABLE JOIN LEFT LIMIT CASE END IF THE TO OF FOR WITH ALL NO YES OK TODO FIXME NOTE HTTP HTTPS",
  "API URL XML HTML CSS JSON SQL ID UI CPU GPU RAM USB PDF TRUE FALSE ERROR WARNING INFO DEBUG TEST US",
  "USA UK EU UN NASA FBI CIA NFL NBA CEO AI TV PC OS IP TCP UDP DNS SSH SSL GET POST PUT HEAD PATH FILE",
  "NAME TYPE DATA KEY TIME DATE START STOP NEW OLD OUT OFF"]

/-- Words that the newer families have behind a sign as well. -/
def codeWords : List String := [
  "a b c d e f g h i j k l m n o p q r s t u v w x y z name id type path case total rate items item",
  "price at users user prevent and return if int for com py rs go js preventDefault get set add put to of by in",
  "is on or not new all list map key value data text size count length index max min sum time date",
  "file line start end url code state test error message result response request node config options",
  "status format html json css id title content body label color width height left right top bottom",
  "string bool char void float double class public private static const let var self this null none",
  "true false print log push pop append join split replace find match filter sort next first last",
  "path read write open close load save run init create update delete remove insert select query",
  "from where group order table row column field args params input output src dst ptr len buf num",
  "str obj arr func fn callback event handler target event server client host port session token",
  "model view db util utils lib main app index api v1 import export"]

/-- Words of several parts that are one token where the parts are not cut at their capitals. -/
def joinedWords : List String := [
  "userId getElementById handleSubmit className onClick useState setState toString fileName userName",
  "innerHTML addEventListener querySelector createElement forEach indexOf hasOwnProperty charAt parseInt"]

/-- Words that end in a contraction. -/
def contractedWords : List String := [
  "don't can't won't isn't wasn't doesn't didn't haven't hasn't hadn't wouldn't couldn't shouldn't",
  "aren't weren't ain't I'm I've I'll I'd i'm you're you've you'll you'd he's he'd he'll she's she'd",
  "it's it'll we're we've we'll we'd they're they've they'll they'd that's there's what's who's let's",
  "here's where's how's"]

end PromptPack.Tokens
