/-
Character names: the scripts from U+1000 on, in the form that `Text.CharName` reads.
-/
import Docsmith.Text.Packed

namespace Docsmith.Text

def otherScriptsNames : Packed := ⟨41708, "
 !$@ET;jYOp:J&X#Tnfn5b7y)>xLN(^Xx1Ni4yENE6DTYmcHSz:usuN_5P9qm),^C@P~tI[Jy>ct%ckp,*k;7;=00f:BPZT@9cNi
 <9ykD=QvB1Q#6;2E).I1t)@zYcu?hpn#ldxdzeRODJ?ql)CQ#v.A[f2M.V.ekL6&Nnp?bc[#I>#ifrf!iN|8LsUz#3:]_4%Cn^q
 j3NATDOHHahj&IxZZlxaxR<7vcmN#<kY,Ynoz19[9y,2RS6$Y>UGZ83;3;Zhd<19@C#F5yq?pgpk!bEoFIWTwC(nbYokZ#sl@cN
 ?D|B|)_<RQc?*Rr.fufv](*g9s7[;&7dr7v~xLbaDG:1:T(>;D0%6l>ZWja0H^V:nt1+Op7,Lz=?zTI=uBoL|.G^B~US]Qf0PE<
 (eVY%4K)1+;x2<0TU6doL+CbJrvX+hLJv|:2WoAk~J=cT#dt?Tbx;U6g8zO(bmieTc@P9fD=sx$|1>$t|Pp[d6Cinn77BQGtk|B
 1aF(3[pv~b^p*UP^1r,hzRBAdxM95>4<~&xQZJJ(Py0Dg2Zc]_>O|ZJFf:M;9nQVPq*d4EMnoI@8ph[*z)tdHUm>P^1s24t63+l
 4vq|zRI|<0_Pm;qp4NI5>N(Q<L7A@cyG_^kBtw7x44x9!=l4%!c1+>KdI=a;R;b2p3CTlup#~7LjL#%udS~:+rYk[3S6NR(#qx3
 vF5o~Xuy8%Vt~^pGEdYdIDf+WmJ5Ih3RZsEsDF3g31sU;lZhOQ4tDzRLE@ibQSY:k)yw?*~Nu*a*agWshdEUvofhduqiK~@6%;W
 KQIF|B14i)bbH;NZS8.[G7Wz_5>ULiF]DnS;uuLaKm>qd0$nH8kyjdvZOC7:vVNc:EnIQB[:?WTUw7cZA:+Zi,bv5<6Ba.OLLpv
 v7eRjQY($M6jz%&Q.5O:(Vd2R&rh=s.Ebjf|I](];0pyI~$UfnphzP*9mr4vV8xkqnb8m%wCFsO:0?pJ.H3afAy&%FUa!GHt!O&
 kDY5sAnu;PjxYIWVjA[9zv&c_ucRm%U<L#5F%!Tq=@Y+o~@MV[r>#usR3wX+HF0OJh;nY~Hh~L8D7p]?RBtFUklBL4vgYb3!<hq
 VN:>VufbHr$1nWSbo9Dv8FK!jWx1^;WS,[z6Y>uxM[v5Q;_qtKq0)pwoQBnzG%)EZ=O7e_:zl<.:9dD@ZZj>~1BETvQ)4Wj>b?o
 #Xj+|PMnH?(gLylhxFIQmpn&?WPz($.y&&tEY*g7M+I&rJ[vUy@y8PM.90g@aXm;QEkm?].iO~:tw7d[ONbBd3*%?]Y~#zQuQ3:
 3g~:BMPg8>9u|ZbjS__mZrr.HV[c6LFj9ds3KN8dIxln![7FQs^gj1k7ahU+teFgj+^*Uy*r(?Ic,#GDVy,fSRoy2[#xX8lIfOc
 mTknq1T>?XWGY_bWs%4^Uq.B*e0M3AAYRRVLz,83y?cQYj>K=#tRiRP5fV>2)n^zs59]]6Y2Z.puSUeSviS]$![MWD^~AY;3_5Y
 dSS<i6w3?~zXjcEYk!Q)Q3w.L^FGBs;hpU]E(Cpj;)oxoKTaRPv~OIHERG>=y@@J(qa5OS(?S!ck)=55ufzZx[vL0]_LBR*Takf
 E2]9L&k|0P##V(FmrRY!j_xaZ9UtQm:Uc>#!ran>povDt?+G^1*jF<K,6%okXUdtoo^SUw9FF:0wM+frMPRKB[O3~89sUN0j^1G
 &Q%QOZ=R0V^VDn^c=]cQ|oHj~QYHLK%RIq7WUJ<ur8$j<iVr(kIDwpuf0!NM+N~4V?$?g|m4bnRVNcj)z!Dc5&e17UT$eWGNist
 2A7d^|,ARbB3pvZy9Oy0zs@Zp<9j[(jXOYG*C)?*!yfHP8o&pJ,@<YmXodBq5vRe;w5W,!gXYUn^M*@&c<dvtB0DVf_k.JeXxp<
 C.5Fx^0iv=3%^%8<#|p7^<EU*0wS$d__^X_vAYA!_qb@@0d&fGpScQZ=o+uS&~B=,KsxrmW;k,]MNI4U+]uamr!uuBY:[w:^|l3
 1D~pL@M>i<P,v_g1rn_mj^aLz!eI2P=5Aw[*|BY28jz$+0tzuJn%&?h@nG<%K+ql*N?8DAwg;O.tJ>2j|WC4a*dV~GI@q?o]?1r
 hTamlInx.NH@A;?1PQ$d#@$g9wE|vL*zXF|NrT2XufHykT9I+25(j;:w]^h=v47(9W2TUvb1w:8yx|:G<_2Kp3N^^$SmAA8>Z_.
 Bvm&*L!Lz7LL#+PteTYGb$NEC][vu+Q6qq)GY4hW>qX%2M3TD1A%QdSqfULXyOF0=k@Hf$:wsT7v<%muy71ADX7o]:.dlT!~^!g
 _?g)&.EC>DAK~SSffI4NMl!R|iOSAn!O|[G[3s|]]aoJ#kjt~$gv7Z+UZ+Do*2yiYC~v*MH+Pv?=2$sjfS#8J.heueT#:r&ns=E
 t(E;Z<?.R.wRiv_%keDv>)Q0bfbC|S,?l:$E^,qBXhJSu)](#K$Y[GJ~]Z!BcbrEO*FqoSd>rwVk2goFxaYK[o8>$@Wi7UcXeG0
 TvA%(a$(!r??E2*9Xxm*zA=<O)(_bPR~k_oAgwokv3ji(x4Ub]&1gdCP?,,QMjlJ9~FPwPt+jWXL.s1y9pfC^nrzHGHLfdA+Cy@
 !_HO><1?@CXthf))s3P;9@EwnU?B>,b4eSW90#>=f2)KBDs0~+zY)c6X?Q)zB?7C*eaj:Wz5S&ssomQLBzx!Wa,,A*0O+h(aK^e
 TsX#y3Bcty;u:J,H*MrveI62U!4Wb.!;pf:[Xwxlz2iP<wg)9e2$+$6Vnic(u,wyrZv,CAz%#ZLuCkUg%*vAEcMZE2k;H>OsWn;
 4#]Ssi^14,x>1eq0d3?i=6%%e_l5Y(8%^[X8Nh]?A8PWvJ$Uc&0$ZqE;v$c_rx%wO!J1:W68b_|Mz44Y#czJC|!#MvH^1kUyU49
 (@R^Ph=PFU1s&=Rtzjc5<@=mF+4mq~GY3*<IhG(E#JE^4BS:p@Vp5ntms#N5bXoH5wyUn.tcL^A5+K<V@Hr*SwG=NNtAdFde5.?
 :(>W_Xl_<n(xc(=%L=U(Ub4t!Fun?B*f7PcTy1PnJ@K~=lM=UK$1.msBq0Xip>y.|y^pWRztduqmPl5BMkEvU1.iB;9:Ep[I5K^
 QJQQ]kX!!JW[G8CS<*g%ysQ8Ld.UapVG7?UN3vE@()zDZH*EAXskj.uS]nc=Gb2c<MDigI6)$U]pa=jKd8$jA:4ZAl1xlz<zgSq
 ,WWOz0:18ddCG~8N!aiVrek:G<sq;#Ye%lCV=>+#:Zs+8T+~P.E$0Tt@5&CoePg%agM(f<K.Hv??:MMs[M*gQ4z(X?XHAa?]rmt
 X2Au*Y;8C8Hw3]:,Wez87ZX;fX35S8$(rpok~)Ye,q*H>8F;z#fO,QXz*5k%|sg$;Y[x|_V5Bn8RUoR$gn3ql_x>Jk^RWpDt!Q9
 pJqsu?ELbnmEqMgtToO!%==$EcDv;)09i5*h1ETcZAQKuS(j@f%4)yrkzoX&X1=mI;75p<_8xMX#aDI#E8tnlaV81]JU,,H$TPf
 hlq6iD[j=k]96.B*kqMY9CmxKy^lw3V<kAo$T8TPR$#mS8ADJoi|;SdUrNx8i0LHDDS&:j;Nx4<w_46?@YH88:u#P^a)6YE9mq=
 h1x~iBwT>TYI@9f,2KZaW6|!1Yzh(|:kti:O&wY,?lW(mLi^<)=x[BM6fZ6m.DMB31vG3Y%K,B(XyG#(r5,WU%56mESI;ULDF9:
 2n44Xd.a]229>1_5_M^~NMYR,|2)<uNf75?T0?l;6&gNQ%uYsx^_KJ!%Ab(L4e^@5]8609B895##.u4uY;P|ybStNQknoPUQDbU
 l4B1CC72,ggOkl+fhfwZx$FXZDf#(.7>)Kv4Ie<X;r3mtOC[RKAy](~0*TUtMnugC3]%InKH,22tp:H&OL?55IHRAaq%Y1Jx|7C
 WMKoY=IvQi~opil^SwN856edl4X4_A<3Q3UyqQ(#u*h~JO]DKP7rRhZcg0c7DGfk*5Aw><im|~hb6G%=bpY&_FuF$KT52ofklqm
 Ey8*UK=AOB!0QV&&_EX2Cb5B#,1EeuHW^!t.]jg|C[$g#e|r_Tcy!%&UM3)2,y;e:;Hzl9HT@5]2Y;(6(CN1fsiLNw@=|z>.#G*
 j$roRK@~yUnktf^G&Qr;!MjU|%^)9Re=aivorQ0vFk)+(H$znkT7;m?K]BqA5;oqf&26SZ7@QCm+b:~v#8<twDDg+i:*2fZGtBY
 |ro&%T%tA<Wa0$4g8<&IMVkj0;~Pp)yeXP$^xZCS6!L>n0jWA]aphd$j<vtgsUQ3~S7m+4Y=Q>GQKFY9Dzn$I,nt]Twd]kBo(Oi
 U4(oEw7p+e)*vo)w!7H~Q#[zo!+%vi@C?sFL!^0C|KV+y0~N7bGvKMVv%?#5~gk>A8,#S.Nt($E,m+@6pM?D8r5Fb?($7E|A]3e
 N2QF<YU(<QL$AHoSKo#!sRju594X_@$2TVef~8p3>Jt4K_f&sA_5U1tS6.C!j%5lif&J_yO6C=N,>qd[A.GirGrK?*2vjEEb*Ry
 diww>EsrU)!r+RFtVM%?3Zbcv)Go9+loDxI%s?kDB?EGA(4avoS_B0~8&I<R.(ylazSEIDoj8|^jQ*lzkLCn.sYSk0|?:sdP8Z,
 !j$JEy,*B&aL$@ql%$ITFrXzXV]c)!?goPh[(Q#e_s[mM_xb$wj6jmsDw_uL%jWZsY=mS=n.hyudYA|FyHtEz~Bo1$|djh<4;v,
 M[B%2L?Npe%=dORGGzbEUJH).8~LIDedE|:g@8I+^v2Njj9&67:XcGY?D4,&tt.>#1I)#02s?m%hf2S7dlm;7g5!POB&n?nEmFH
 zul;.Jw>&=Umepa<89#,#E!h[0,QU]r==0@*Q!NCvOj2Y!gH^WyR8uB5uE<zxVr[W.Zx?E?5Sxa0qugAq_;&e%gzx7wh#]#[7yC
 w*Rrpf[Z8pQj^ahQ^xI58FZj(8AdzL.oAG_[,ACA,^3V,hpX%]zOL%l7zpIXy1d*;mCczhZa>wta)ni!,6ErJMID(Jj9AakS?oy
 S*>4j!CKYN4+e37B_ngbA*sn_8F&?UVq&_Dy7%#!pSaJw0Ii^cV&1,r5A?r&50[rIBkqqClb[x:[|7.4tm&3+.4=NDPVPcE)EYf
 r=d9K04H*k^#8P(zk4RR@xtAo~oN<uA29lsufv$]j9il%t4:.$kwPTxd;Dg*G9H<09*4sa=Hg>V~E:yTk~:;tD,R&*E]Dm9H^:y
 )YCuoABKJ&|&s?F@%#M&fp4Kbk<6j37[<Lf^b%R*4NmrJL4hxHufHJhZCqRki4I]RW!&QC8wZj^c5%+B<hMNF5Gwq|ttY(ut,RE
 .wWl)THvpQY$u,b;S]AWB5tC7lZGy$eBrsSzQr)#e.caQPGZL;$hM=L=33&pv~P3;>aefBbUtJ^BWGmNk.$O>;^;,tO,;oU&H7H
 (5Rut!4j|O06MoJ$9z$eovIJ#jx<i(xX$VRA]aj]&<DgMm~LT;$E~o[_sJs#YHCmf!%:1t_RlGgWe=V(1ylZ[7<ZIRrReI:1+k9
 :Q^~)A*P)~k3M;@E>hqo!M%AVZ,886.l6A.=;xK,uWS|&]q#6kNAz4A;g6Id4Ry3qBq4&>LYwn[b$@oCCCy%!tNYBuJ_N1T?dO]
 g=3ak)h6NB9GRAd#o2VoTuu9@M;j$t7H~^!_vW[0xLK3hou4uX@$x|fAA$$ufyfR7_@1GNcrC#gHaC[;v~G<.lyIIiv_V#<!x,&
 @IN1k>q(LYGi6Fn+UDF5axJi%pZRB2pf?nU&pW!kt[E1g_dc_e0(s][rj1=dL>hr46dm>>GAW78Nv+N>Ya6;y*Y9c9<D?mbZ[3j
 1*aEBBs|Pu=naulP94i^e]Y2O?h$iWF34$ND18q>7M49U=zwav0|pVQL>DaYE^8htA$NlAf9.Y.Kf]*Se<fi7YRc6]ucP(0gWJn
 M1.#T8M<?I~C[L8K?Ij]9g;!;?>7KuoH~NbijZ@wS~b0E[%&:$=8PLUyDx|Fao?$81eyUS>|tDIN[nx38~v*&+5NVB;69A~%?O_
 9LC3Mrq2HH.jgiotRV1GPqurwe!*GIYhk:!90!Dfc~<08W#:cB$D+qHdP=^:m7a^ig1#cAj>VnV624swFTbf3@kOHEzlVDXfCIP
 |.itu>V=~a^,:zhT*~QQ[kj~q1g9.Q4_ZWp78]+%yTlkGklU]b45+L]c(ZPf(0UA&y;]iKdr+:h?X,Lex>Oe.+QilY;!JjNsPQ.
 EMQ0OVN8@pOI]df~uxD1.Njg!3E|8+0n9S<s1AL*RxfG^4]X)Nn|J;lrN|=8a81WFO!i!3KTQ~(=^]Ic+b%]pT(mln%6=zT=fS#
 i$MXJjlyy9,pNU,S*.3+_X:lC$=T%cS_7ia~~g8)|HTi~n|.30wRkB_iQ9,maTd9$#N>69+PCY.?(3kYNBWc]sWY94#Hx8[r!Lg
 w7K~_gFd#N%o,^pP$(OTj|!.[NR1Dc3Ej=@Q!Y|hcN!=k?U.ZflJPAP)EsnZAoIBEJ_kVsVi<V>A$da]g@f^:b#FSa)4<)4A42[
 KOq+J?52;ZDl,St!>NGC=.hi6uGh.]uQM$@Nx1q|T|j<$m5ai2k*T_!2PS9_X]xM9?oyz7=u+!Iwkc0]L[QHh.;l,9zz<U;T]>o
 Kk,MJoU,%,YD.Y5%fq#c9b8:zVZALo3bS&4Jz3XGl9h2r;)N.6fE|52#swM)YvI+nMHe>MI!$y;~M:QDVff6nXjetTLAnoG):[(
 8%#>O<mXaIkQXwoJfH$gb[j$Mbu!n+%I&_#v#|.LiRB;wot<dwd<0+U_mIC%l:8c#)37*TlQ(8D6Y6^.@D%EI)3:uwuB4<Jsx2p
 S7[QF<s3tYa]%~4ng%K0O,d.N*W2uw*jF8lv5*?)%Fd6]%yY[%[?NPv76xUp(KcauK%j,.]uGDNA:(oH*i9A%l3j*2yqc3d5g*^
 )kL,$iL%]60j]5rlgy6=_tW9sGMYj(Ex?9:vV7m2+LE$pbly6Ep.?HVCrk?Cr=,&)tfr.FJ=&u(z<5htItvsGXZQT,eOMM(E4*:
 :!AVyfeA7h!FnwgVkn$PC9I)t_h%_AV~~;<LjceoT9UKtFq8e%SJ.b~#6!KhY]XXbFJSf:9?rWh2?1mOo&Ki7t.nk0IR_SJsT6k
 _cs9;8BIGpm=O)N^J@W.d_,P;sRGP2NISv,yzLqD.6#=Z1s_#Gz|7p;ysiRY0OZk4Y~M?GU=^*l,X[igAgt^TKcxUq+|:j~9,F#
 ZoA;2UZ7atcocjZ)Na+V.UiMA!9x>[qsEZO:ZF>tX&Uu98efi>Pz*Q(evSam3(66H1(3*;|E!)J2C:=wL$?#JGBf!*##?39Zq+I
 x~6b5iIb0Tv&?No3d[kIVP1MNY$l~1,YU&:nA7ev~Pk2YW!cr@+$5!7m_n1cCvw;FeV(0:6rf7dWH^eEY$NHjCXVzT|4bcYc!LJ
 .7t=B*Uo@gS]dFW+3GF=TPy*w03oZ6?4_1TT|f8SeG?$u~b9G=qpmr*JWk^?V^>riw@?Zsc$glOrd~X0%Dn*I*$_,;z^Uo5zUDP
 coR]A#+C][Idzd4oTA;%iIVS^=waMNV*:nS(|HnKPt)HPA3#3*X]:9+#@&HXkBeo^qUz<^LD69+33dZssyF+urYSeMikk$OMOPI
 J7[qzsmg*,oQbt2ZpQ@O=c5UP36:iYsSsHE>.|TV+S0Wb,giVlfBZUjBG6rZDKNQ%:=M%Db>WB_Bd>.yL|0=3~*UCTf(mIGj:c!
 RzNVS#3[H@Vv8i5u8#L=GYkuXJ>#Qm7Ho:q_#MU>JA5I69_O%iSamg&:kUk2Yf;<[JcYBwxBT=Z~3,xP^BG&]l?s>y+!)zT<nY?
 Pi]A,:2iTvR&1<+Ze4u%YZhq~t9<Sz8RqJfPth|9er6tI8?9ZB%z:#o?;$.]|[?ob?UmsPrU.tKm214j2CgQ,O?C1f4J^g#4L9b
 d_++]#!MK_sa5@3v?=2TVO()1<9!!ui&N~)TG8KMl@Z6|i;v=ad+X^%*jE:l4:D^~:UQiaOXA2jooiwlaXaqo)8w]ba?Pye5mwG
 72?m^[rGao1F+k9=%GqYL^BV]yvw)8wILW@^4=kq+ZH.,p78>_pEN8rHDkDAdFo3"⟩

end Docsmith.Text
